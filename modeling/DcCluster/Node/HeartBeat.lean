import DcCluster.Lib.History
import DcCluster.Node.HeartBeatCore

/-!
Agreement of the nodes and the server about who is registered. What a node does
next depends only on what its own calls returned, so the order of its calls is an
invariant of the loop alone; that an answer came from an execution by the server,
and what that execution found, is a second one.
-/

namespace DcCluster.HeartBeat

open DcCluster.Lib DcCluster.Server

def RemoteCall.sent (call : RemoteCall) : RemoteCall := { call with executed := none }

def NodeLoop.trace (loop : NodeLoop) : List RemoteCall := loop.calls.map RemoteCall.sent

def registered (_ : List RemoteCall) (call : RemoteCall) : Prop :=
  call.kind = .registClient ∧ call.returned = some true

def failedBeat (_ : List RemoteCall) (call : RemoteCall) : Prop :=
  call.kind = .heartbeat ∧ call.returned = some false

/-- A `registClient` succeeded and no heartbeat failed since. -/
abbrev Registered : List RemoteCall → Prop := Since registered failedBeat

def Settled (calls : List RemoteCall) : Prop := ∀ call ∈ calls, call.returned ≠ none

/-- What the calls of a loop and `m_bregister_ok` are at each point of the loop. -/
def Position (trace : List RemoteCall) (bregisterOk : Bool) (iteration : Nat) : LoopPc → Prop
  | .top | .afterRegister => Settled trace ∧ (bregisterOk = true → Registered trace)
  | .inRegisterClient => ∃ before call, trace = before ++ [call] ∧
      call.kind = .registClient ∧ Settled before ∧ bregisterOk = false
  | .inHeartBeatWork => ∃ before call, trace = before ++ [call] ∧
      call.kind = .heartbeat ∧ call.iteration = iteration ∧ Settled before ∧
      Registered before ∧ bregisterOk = true
  | .semWait => Settled trace ∧ (bregisterOk = true → Registered trace ∧
      ∃ before call, trace = before ++ [call] ∧ call.kind = .heartbeat ∧
        call.returned = some true ∧ call.iteration = iteration)
  | .stopped => True

def inOrder (before : List RemoteCall) (call : RemoteCall) : Prop :=
  call.kind = .heartbeat → Settled before ∧ Registered before

structure Ordered (loop : NodeLoop) : Prop where
  calls : Each inOrder loop.trace
  position : Position loop.trace loop.bregisterOk loop.iteration loop.pc

/-- An answer comes from an execution, and a heartbeat is answered with `true` exactly when it
found an entry, which it stamped. -/
structure Answered (call : RemoteCall) : Prop where
  reply : call.returned = some true → ∃ done, call.executed = some done ∧ done.answer = true
  beat : ∀ done, call.executed = some done → call.kind = .heartbeat →
    done.answer = done.before.isSome ∧ (done.answer = true → done.after = some done.clock)

section Loop

variable {loop next : NodeLoop}

theorem send_trace (loop : NodeLoop) (kind : RpcKind) (pc : LoopPc) :
    (loop.send kind pc).trace = loop.trace ++
      [{ kind := kind, iteration := loop.iteration, executed := none, returned := none }] := by
  simp [NodeLoop.trace, NodeLoop.send, RemoteCall.sent]

theorem proceed_ordered {bstop : Bool} (ordered : Ordered loop)
    (taken : loop.proceed bstop = some next) : Ordered next := by
  have position := ordered.position
  unfold NodeLoop.proceed at taken
  split at taken
  next atTop =>
    rw [atTop] at position
    obtain ⟨settled, earned⟩ := position
    by_cases unregistered : loop.bregisterOk = false
    · rw [if_pos unregistered] at taken
      cases taken
      constructor
      · rw [send_trace, each_append_singleton]
        exact ⟨ordered.calls, by simp [inOrder]⟩
      · exact ⟨loop.trace, _, send_trace loop _ _, rfl, settled, unregistered⟩
    · rw [if_neg unregistered] at taken
      cases taken
      exact ⟨ordered.calls, settled, earned⟩
  next afterRegister =>
    rw [afterRegister] at position
    obtain ⟨settled, earned⟩ := position
    by_cases isRegistered : loop.bregisterOk = true
    · rw [if_pos isRegistered] at taken
      cases taken
      constructor
      · rw [send_trace, each_append_singleton]
        exact ⟨ordered.calls, fun _ => ⟨settled, earned isRegistered⟩⟩
      · exact ⟨loop.trace, _, send_trace loop _ _, rfl, rfl, settled, earned isRegistered,
          isRegistered⟩
    · rw [if_neg isRegistered] at taken
      cases taken
      exact ⟨ordered.calls, settled, fun isTrue => absurd isTrue isRegistered⟩
  next atWait =>
    rw [atWait] at position
    obtain ⟨settled, earned⟩ := position
    cases bstop with
    | true =>
        cases taken
        exact ⟨ordered.calls, trivial⟩
    | false =>
        cases taken
        exact ⟨ordered.calls, settled, fun isTrue => (earned isTrue).1⟩
  next => cases taken

theorem settled_append {before : List RemoteCall} {call : RemoteCall} (settled : Settled before)
    (returned : call.returned ≠ none) : Settled (before ++ [call]) := by
  intro other member
  rcases List.mem_append.mp member with earlier | last
  · exact settled other earlier
  · rwa [List.mem_singleton.mp last]

/-- The last call of a loop with the result it returned. -/
theorem returns_cases {delivered : Bool} (taken : loop.returns delivered = some next) :
    ∃ before call success, loop.calls = before ++ [call] ∧
      NodeLoop.result call delivered = some success ∧
      next.calls = before ++ [{ call with returned := some success }] ∧
      next.iteration = loop.iteration ∧
      (loop.pc = .inRegisterClient ∧ next.pc = .afterRegister ∧
          next.bregisterOk = (loop.bregisterOk || success) ∨
        loop.pc = .inHeartBeatWork ∧ next.pc = .semWait ∧
          next.bregisterOk = (loop.bregisterOk && success)) := by
  simp only [NodeLoop.returns, Option.bind_eq_bind, Option.bind_eq_some_iff] at taken
  obtain ⟨call, isLast, success, result, taken⟩ := taken
  have split : loop.calls = loop.calls.dropLast ++ [call] :=
    (List.dropLast_append_getLast? call isLast).symm
  refine ⟨loop.calls.dropLast, call, success, split, result, ?_⟩
  split at taken
  next atRegister =>
    cases taken
    exact ⟨rfl, rfl, .inl ⟨atRegister, rfl, rfl⟩⟩
  next atBeat =>
    cases taken
    exact ⟨rfl, rfl, .inr ⟨atBeat, rfl, rfl⟩⟩
  next => cases taken

theorem returns_ordered {delivered : Bool} (ordered : Ordered loop)
    (taken : loop.returns delivered = some next) : Ordered next := by
  obtain ⟨before, call, success, split, _, calls, iteration, point⟩ := returns_cases taken
  have oldTrace : loop.trace = before.map RemoteCall.sent ++ [call.sent] := by
    simp [NodeLoop.trace, split]
  have newTrace : next.trace = before.map RemoteCall.sent ++
      [{ call.sent with returned := some success }] := by
    simp [NodeLoop.trace, calls, RemoteCall.sent]
  have position := ordered.position
  have order := ordered.calls
  rw [oldTrace, each_append_singleton] at order
  rcases point with ⟨atRegister, newPc, flag⟩ | ⟨atBeat, newPc, flag⟩
  · rw [atRegister] at position
    obtain ⟨others, last, trace, kind, settled, unregistered⟩ := position
    obtain ⟨rfl, rfl⟩ := List.append_singleton_inj.mp (oldTrace.symm.trans trace)
    have isRegister : call.kind = .registClient := kind
    constructor
    · rw [newTrace, each_append_singleton]
      exact ⟨order.1, by simp [inOrder, RemoteCall.sent, isRegister]⟩
    · rw [newPc]
      refine ⟨by rw [newTrace]; exact settled_append settled (by simp), ?_⟩
      intro succeeded
      rw [flag, unregistered, Bool.false_or] at succeeded
      rw [newTrace]
      exact since_append_singleton.mpr (.inl ⟨isRegister, by rw [succeeded]⟩)
  · rw [atBeat] at position
    obtain ⟨others, last, trace, kind, sameIteration, settled, earned, _⟩ := position
    obtain ⟨rfl, rfl⟩ := List.append_singleton_inj.mp (oldTrace.symm.trans trace)
    constructor
    · rw [newTrace, each_append_singleton]
      exact ⟨order.1, fun _ => ⟨settled, earned⟩⟩
    · rw [newPc]
      refine ⟨by rw [newTrace]; exact settled_append settled (by simp), ?_⟩
      intro stillRegistered
      have succeeded : success = true := by
        rw [flag, Bool.and_eq_true] at stillRegistered
        exact stillRegistered.2
      subst success
      constructor
      · rw [newTrace]
        exact since_append_singleton.mpr (.inr ⟨earned, by simp [failedBeat]⟩)
      · refine ⟨_, _, newTrace, kind, rfl, ?_⟩
        rw [iteration]
        exact sameIteration

end Loop

section Server

theorem execution_beat (registry : Registry) (loop : NodeLoop) (clock : Int) :
    (execution registry loop .heartbeat clock).answer =
        (execution registry loop .heartbeat clock).before.isSome ∧
      ((execution registry loop .heartbeat clock).answer = true →
        (execution registry loop .heartbeat clock).after = some clock) := by
  have found := heartBeatWork_result registry ⟨loop.NodeIp, loop.NodePort⟩ clock
  refine ⟨found, fun answered => ?_⟩
  have present : (registry.table loop.key).isSome = true := found.symm.trans answered
  have stamped := heartBeatWork_table registry ⟨loop.NodeIp, loop.NodePort⟩ clock
  have after := congrFun stamped loop.key
  rw [NodeMap.apply_heartBeatWork, if_pos ⟨rfl, present⟩] at after
  exact after

theorem answered_of_executed {registry : Registry} {loop : NodeLoop} {call : RemoteCall}
    (answered : Answered call) (fresh : call.executed = none) (clock : Int) :
    Answered { call with executed := some (execution registry loop call.kind clock) } := by
  constructor
  · intro replied
    obtain ⟨done, isDone, _⟩ := answered.reply replied
    rw [fresh] at isDone
    cases isDone
  · rintro done ⟨⟩ isBeat
    have kind : call.kind = .heartbeat := isBeat
    rw [kind]
    exact execution_beat registry loop clock

theorem answered_of_returned {call : RemoteCall} {delivered success : Bool}
    (answered : Answered call) (result : NodeLoop.result call delivered = some success) :
    Answered { call with returned := some success } := by
  refine ⟨fun replied => ?_, answered.beat⟩
  cases replied
  cases delivered with
  | false => simp [NodeLoop.result] at result
  | true =>
      obtain ⟨done, isDone, isTrue⟩ := Option.map_eq_some_iff.mp result
      exact ⟨done, isDone, isTrue⟩

end Server

structure LoopInv (loop : NodeLoop) : Prop where
  ordered : Ordered loop
  answered : ∀ call ∈ loop.calls, Answered call

theorem LoopInv.proceed {loop next : NodeLoop} {bstop : Bool} (inv : LoopInv loop)
    (taken : loop.proceed bstop = some next) : LoopInv next := by
  refine ⟨proceed_ordered inv.ordered taken, ?_⟩
  have sent (kind : RpcKind) (pc : LoopPc) : ∀ call ∈ (loop.send kind pc).calls, Answered call := by
    intro call member
    rcases List.mem_append.mp member with old | new
    · exact inv.answered call old
    · rw [List.mem_singleton.mp new]
      exact ⟨by simp, by simp⟩
  unfold NodeLoop.proceed at taken
  split at taken
  · split at taken
    · cases taken
      exact sent _ _
    · cases taken
      exact inv.answered
  · split at taken
    · cases taken
      exact sent _ _
    · cases taken
      exact inv.answered
  · split at taken <;> (cases taken; exact inv.answered)
  · cases taken

theorem LoopInv.returns {loop next : NodeLoop} {delivered : Bool} (inv : LoopInv loop)
    (taken : loop.returns delivered = some next) : LoopInv next := by
  refine ⟨returns_ordered inv.ordered taken, fun call member => ?_⟩
  obtain ⟨before, last, success, split, result, calls, -⟩ := returns_cases taken
  rw [calls] at member
  rcases List.mem_append.mp member with earlier | isLast
  · exact inv.answered call (by simp [split, earlier])
  · rw [List.mem_singleton.mp isLast]
    exact answered_of_returned (inv.answered last (by simp [split])) result

/-- An execution by the server changes nothing that the node sees. -/
theorem LoopInv.execute {loop : NodeLoop} {call : Nat} {request done : RemoteCall}
    (inv : LoopInv loop) (found : loop.calls[call]? = some request)
    (unseen : done.sent = request.sent) (answered : Answered done) :
    LoopInv { loop with calls := loop.calls.set call done } := by
  obtain ⟨inside, rfl⟩ := List.getElem?_eq_some_iff.mp found
  have sameTrace : NodeLoop.trace { loop with calls := loop.calls.set call done } = loop.trace := by
    have insideTrace : call < (loop.calls.map RemoteCall.sent).length := by simpa using inside
    have here : (loop.calls.map RemoteCall.sent)[call] = done.sent := by
      rw [List.getElem_map, unseen]
    simp only [NodeLoop.trace, List.map_set, ← here, List.set_getElem_self]
  refine ⟨⟨by rw [sameTrace]; exact inv.ordered.calls, ?_⟩, ?_⟩
  · rw [sameTrace]
    exact inv.ordered.position
  · intro other member
    rcases List.mem_or_eq_of_mem_set member with old | rfl
    · exact inv.answered other old
    · exact answered

theorem step_invariant {system next : System} {action : Action}
    (inv : ∀ loop ∈ system.loops, LoopInv loop) (taken : step system action = some next) :
    ∀ loop ∈ next.loops, LoopInv loop := by
  have changed {index : Nat} {updated : NodeLoop} (holds : LoopInv updated) :
      ∀ loop ∈ system.loops.set index updated, LoopInv loop := by
    intro loop member
    rcases List.mem_or_eq_of_mem_set member with old | rfl
    · exact inv loop old
    · exact holds
  cases action with
  | start NodeIp NodePort =>
      cases taken
      intro loop member
      rcases List.mem_append.mp member with old | new
      · exact inv loop old
      · rw [List.mem_singleton.mp new]
        refine ⟨⟨?_, ?_, ?_⟩, ?_⟩ <;> simp [NodeLoop.constructed, NodeLoop.trace, Each, Settled]
  | proceed index bstop =>
      simp only [step, Option.bind_eq_bind, Option.bind_eq_some_iff] at taken
      obtain ⟨loop, found, updated, moved, ⟨⟩⟩ := taken
      exact changed ((inv loop (List.mem_of_getElem? found)).proceed moved)
  | execute index call clock =>
      simp only [step, execute, Option.bind_eq_bind, Option.bind_eq_some_iff] at taken
      obtain ⟨loop, found, request, isCall, taken⟩ := taken
      split at taken
      · cases taken
      next unexecuted =>
        cases taken
        have loopInv := inv loop (List.mem_of_getElem? found)
        have fresh : request.executed = none := by simpa using unexecuted
        refine changed (loopInv.execute isCall rfl ?_)
        exact answered_of_executed (loopInv.answered request (List.mem_of_getElem? isCall)) fresh clock
  | returns index delivered =>
      simp only [step, Option.bind_eq_bind, Option.bind_eq_some_iff] at taken
      obtain ⟨loop, found, updated, moved, ⟨⟩⟩ := taken
      exact changed ((inv loop (List.mem_of_getElem? found)).returns moved)
  | server op =>
      cases taken
      exact inv

section Agreement

variable {loop : NodeLoop}

theorem heartbeat_earned (inv : LoopInv loop) {before after : List RemoteCall} {call : RemoteCall}
    (split : loop.calls = before ++ call :: after) (isBeat : call.kind = .heartbeat) :
    Settled (before.map RemoteCall.sent) ∧ Registered before := by
  have traced : loop.trace = before.map RemoteCall.sent ++ call.sent :: after.map RemoteCall.sent := by
    simp [NodeLoop.trace, split]
  obtain ⟨settled, earned⟩ := inv.ordered.calls _ _ _ traced isBeat
  exact ⟨settled, since_map.mp earned⟩

theorem heartbeat_stamped (inv : LoopInv loop) (waits : loop.pc = .semWait)
    (isRegistered : loop.bregisterOk = true) :
    ∃ before call done, loop.calls = before ++ [call] ∧ call.kind = .heartbeat ∧
      call.iteration = loop.iteration ∧ call.executed = some done ∧
      done.before.isSome = true ∧ done.after = some done.clock := by
  have position := inv.ordered.position
  rw [waits] at position
  obtain ⟨_, traceBefore, seen, trace, isBeat, isTrue, sameIteration⟩ := position.2 isRegistered
  obtain ⟨before, others, split, rfl, isLast⟩ := List.map_eq_append_iff.mp trace
  obtain ⟨call, rest, rfl, rfl, isNil⟩ := List.map_eq_cons_iff.mp isLast
  rw [List.map_eq_nil_iff.mp isNil] at split
  have answered := inv.answered call (by simp [split])
  obtain ⟨done, executed, succeeded⟩ := answered.reply isTrue
  obtain ⟨found, stamps⟩ := answered.beat done executed isBeat
  exact ⟨before, call, done, split, isBeat, sameIteration, executed, found ▸ succeeded,
    stamps succeeded⟩

theorem register_after_absent (inv : LoopInv loop) {before after : List RemoteCall}
    {first second : RemoteCall} {done : Execution}
    (split : loop.calls = before ++ first :: second :: after) (isBeat : first.kind = .heartbeat)
    (executed : first.executed = some done) (absent : done.before = none) :
    second.kind = .registClient := by
  by_contra other
  have secondBeat : second.kind = .heartbeat := by
    cases kind : second.kind with
    | registClient => exact absurd kind other
    | heartbeat => rfl
  have regrouped : loop.calls = (before ++ [first]) ++ second :: after := by simp [split]
  obtain ⟨settled, earned⟩ := heartbeat_earned inv regrouped secondBeat
  have answered := inv.answered first (by simp [split])
  have returned : first.returned ≠ none := settled first.sent (by simp)
  have unbroken : ¬ failedBeat before first := by
    rcases since_append_singleton.mp earned with registers | ⟨_, survives⟩
    · have isRegister : first.kind = .registClient := registers.1
      rw [isBeat] at isRegister
      cases isRegister
    · exact survives
  cases result : first.returned with
  | none => exact returned result
  | some success =>
      cases success with
      | false => exact unbroken ⟨isBeat, result⟩
      | true =>
          obtain ⟨answer, sameExecution, isTrue⟩ := answered.reply result
          rw [executed] at sameExecution
          cases sameExecution
          have found := (answered.beat done executed isBeat).1
          simp [isTrue, absent] at found

/-- In every run: a heartbeat is sent only if a `registClient` succeeded after the last failed
heartbeat; a loop that waits with `m_bregister_ok` set had its heartbeat executed in this
iteration on an entry that was present and was stamped; and after a heartbeat that found the node
absent the next call of the node is a `registClient`. -/
theorem register_then_heartbeat {system : System}
    (reached : Reachable step (· = initial) anyAction system) {loop : NodeLoop}
    (member : loop ∈ system.loops) :
    (∀ before call after, loop.calls = before ++ call :: after → call.kind = .heartbeat →
      Since registered failedBeat before) ∧
    (loop.pc = .semWait → loop.bregisterOk = true →
      ∃ before call done, loop.calls = before ++ [call] ∧ call.kind = .heartbeat ∧
        call.iteration = loop.iteration ∧ call.executed = some done ∧
        done.before.isSome = true ∧ done.after = some done.clock) ∧
    (∀ before first second after done, loop.calls = before ++ first :: second :: after →
      first.kind = .heartbeat → first.executed = some done → done.before = none →
      second.kind = .registClient) := by
  have inv : LoopInv loop := by
    refine Reachable.invariant (fun state => ∀ other ∈ state.loops, LoopInv other) ?_ ?_ reached
      loop member
    · rintro state rfl other isLoop
      simp [initial] at isLoop
    · intro state action next _ holds _ taken
      exact step_invariant holds taken
  refine ⟨?_, heartbeat_stamped inv, ?_⟩
  · intro before call after split isBeat
    exact (heartbeat_earned inv split isBeat).2
  · intro before first second after done split isBeat executed absent
    exact register_after_absent inv split isBeat executed absent

/-- A node registers, is removed, and loses the reply of its first heartbeat. -/
def lostReply : List Action :=
  [.start "10.0.0.2" 6002, .proceed 0 false, .execute 0 0 5, .returns 0 true, .proceed 0 false,
    .server (.failureRemoval ⟨"10.0.0.2", 6002, 5⟩), .execute 0 1 7, .returns 0 false,
    .proceed 0 false, .proceed 0 false]

def lostReplyLoop : NodeLoop :=
  { NodeIp := "10.0.0.2", NodePort := 6002, pc := .inRegisterClient, bregisterOk := false
    iteration := 1
    calls :=
      [⟨.registClient, 0, some ⟨5, none, some 5, true⟩, some true⟩,
        ⟨.heartbeat, 0, some ⟨7, none, none, false⟩, some false⟩,
        ⟨.registClient, 1, none, none⟩] }

theorem register_then_heartbeat_lostReply :
    Since registered failedBeat (lostReplyLoop.calls.take 1) ∧
      ∃ call, lostReplyLoop.calls[2]? = some call ∧ call.kind = .registClient := by
  have executed : run step initial lostReply = some ⟨⟨[], 0⟩, [lostReplyLoop]⟩ := by
    decide +kernel
  have atStart : Reachable step (· = initial) anyAction initial := .start rfl
  have reached := atStart.append_run (permitted_anyAction step initial lostReply) executed
  have isLoop : lostReplyLoop ∈ [lostReplyLoop] := by simp
  obtain ⟨earned, _, follows⟩ := register_then_heartbeat reached isLoop
  constructor
  · exact earned _ ⟨.heartbeat, 0, some ⟨7, none, none, false⟩, some false⟩ _ rfl rfl
  · exact ⟨_, rfl, follows (lostReplyLoop.calls.take 1) _ _ [] _ rfl rfl rfl rfl⟩

end Agreement

end DcCluster.HeartBeat
