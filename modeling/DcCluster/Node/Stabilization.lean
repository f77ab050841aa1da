import DcCluster.Node.Freshness

/-!
The 30 seconds between two heartbeats against the 60 seconds of the sweep. Where calls
return in time, a node that is registered and whose calls are not lost stays registered;
and after any faults it is registered again within two rounds of its loop.
-/

namespace DcCluster.HeartBeat

open DcCluster.Lib DcCluster.Server

/-- The execution of the call that was sent last. -/
def current (loop : NodeLoop) : Option Execution := loop.calls.getLast?.bind RemoteCall.executed

def Heard (registry : Registry) (key : NodeKey) (since : Int) : Prop :=
  ∃ stamp, registry.table key = some stamp ∧ since ≤ stamp

theorem Heard.mem_keys {registry : Registry} {key : NodeKey} {since : Int}
    (heard : Heard registry key since) : key ∈ registry.keys := by
  obtain ⟨stamp, registered, _⟩ := heard
  exact Registry.mem_keys_iff.mpr (by simp [registered])

theorem Heard.mono {registry : Registry} {key : NodeKey} {since earlier : Int}
    (heard : Heard registry key since) (before : earlier ≤ since) :
    Heard registry key earlier := by
  obtain ⟨stamp, registered, after⟩ := heard
  exact ⟨stamp, registered, Int.le_trans before after⟩

section Current

variable {loop : NodeLoop}

@[simp] theorem send_pc (kind : RpcKind) (pc : LoopPc) : (loop.send kind pc).pc = pc := rfl

@[simp] theorem current_send (kind : RpcKind) (pc : LoopPc) : current (loop.send kind pc) = none := by
  simp [current, NodeLoop.send]

theorem current_of_calls {before : List RemoteCall} {call : RemoteCall}
    (split : loop.calls = before ++ [call]) : current loop = call.executed := by
  simp [current, split]

/-- Where a call is executed that is not the last one, the last one is as before. -/
theorem current_withExecution {place : Nat} {request : RemoteCall}
    (isCall : loop.calls[place]? = some request) (registry : Registry) (clock : Int) :
    current (withExecution registry loop place request clock) = current loop ∨
      loop.calls.getLast? = some request ∧
        current (withExecution registry loop place request clock) =
          some (execution registry loop request.kind clock) := by
  have inside := (List.getElem?_eq_some_iff.mp isCall).1
  simp only [current, withExecution, List.getLast?_eq_getElem?, List.length_set]
  by_cases last : place = loop.calls.length - 1
  · right
    subst last
    refine ⟨isCall, ?_⟩
    rw [List.getElem?_set_self inside, Option.bind_some]
  · left
    rw [List.getElem?_set_ne last]

end Current

/-- The loop believes that its node is registered, and what it waits for will not deny it. -/
def Good (loop : NodeLoop) : Prop :=
  match loop.pc with
  | .inRegisterClient => ∃ done, current loop = some done ∧ done.answer = true
  | .inHeartBeatWork => ∀ done, current loop = some done → done.answer = true
  | .stopped => False
  | .top | .afterRegister | .semWait => loop.bregisterOk = true

section Bounds

variable (slack latency : Nat)

/-- Since when a node with a good loop was heard of at least once. -/
def heardFrom (since : Int) (loop : NodeLoop) : Int :=
  match loop.pc with
  | .inRegisterClient => since
  | .inHeartBeatWork =>
      if current loop = none then since - (30 * 1000 + slack) - latency else since
  | _ => since - latency

/-- The instant at which a loop that is not good has its node registered, if nothing fails. -/
def registersBy (since : Int) (loop : NodeLoop) : Int :=
  match loop.pc with
  | .inRegisterClient =>
      if current loop = none then since + latency
      else since + 2 * (30 * 1000 + slack) + 3 * latency
  | .inHeartBeatWork =>
      if (current loop).any Execution.answer then since + 2 * (30 * 1000 + slack) + 3 * latency
      else since + (30 * 1000 + slack) + 2 * latency
  | .stopped => since
  | .top | .afterRegister | .semWait =>
      if loop.bregisterOk then since + 2 * (30 * 1000 + slack) + 2 * latency
      else since + (30 * 1000 + slack) + latency

structure Secured (since : Int) (registry : Registry) (loop : NodeLoop) : Prop where
  good : Good loop
  heard : Heard registry loop.key (heardFrom slack latency since loop)

end Bounds

/-- Since when a loop counts after a step. -/
def sinceAfter (now since : Int) (loop next : NodeLoop) : Int :=
  if next.pc.calling = loop.pc.calling then since else now

section Moves

variable {slack latency : Nat} {registry : Registry} {loop next : NodeLoop} {since now : Int}

theorem heardFrom_le : heardFrom slack latency since loop ≤ since := by
  unfold heardFrom
  split
  · exact Int.le_refl since
  · split <;> omega
  · omega

theorem inTime_proceed (inTime : loop.InTime slack latency since now) {bstop : Bool}
    (taken : loop.proceed bstop = some next) :
    next.InTime slack latency (sinceAfter now since loop next) now := by
  have starts : now ≤ now + latency := by omega
  rcases proceed_cases taken with ⟨pc, -, rfl⟩ | ⟨pc, -, rfl⟩ | ⟨pc, -, rfl⟩ | ⟨pc, -, rfl⟩ |
    ⟨pc, -, rfl⟩ | ⟨pc, -, rfl⟩ <;>
    simp_all [NodeLoop.InTime, sinceAfter, NodeLoop.send, LoopPc.calling]

theorem inTime_returns {delivered : Bool} (taken : loop.returns delivered = some next) :
    next.InTime slack latency (sinceAfter now since loop next) now := by
  obtain ⟨before, call, success, -, -, -, -, point⟩ := returns_cases taken
  rcases point with ⟨pc, pcNext, -⟩ | ⟨pc, pcNext, -⟩ <;>
    (simp only [NodeLoop.InTime, sinceAfter, pc, pcNext, LoopPc.calling]; simp; omega)

@[simp] theorem sinceAfter_self : sinceAfter now since loop loop = since := if_pos rfl

@[simp] theorem sinceAfter_withExecution {place : Nat} {request : RemoteCall} {clock : Int} :
    sinceAfter now since loop (withExecution registry loop place request clock) = since :=
  if_pos rfl

theorem secured_proceed (inTime : loop.InTime slack latency since now)
    (secured : Secured slack latency since registry loop)
    (taken : loop.proceed false = some next) :
    Secured slack latency (sinceAfter now since loop next) registry next := by
  obtain ⟨good, heard⟩ := secured
  rcases proceed_cases taken with ⟨pc, ok, rfl⟩ | ⟨pc, ok, rfl⟩ | ⟨pc, ok, rfl⟩ | ⟨pc, ok, rfl⟩ |
    ⟨pc, ok, rfl⟩ | ⟨pc, ok, rfl⟩
  · simp [Good, pc, ok] at good
  · refine ⟨ok, heard.mono ?_⟩
    simp [heardFrom, pc, sinceAfter, LoopPc.calling]
  · constructor
    · simp [Good]
    · refine heard.mono ?_
      simp only [NodeLoop.InTime, pc] at inTime
      simp only [heardFrom, pc, sinceAfter, current_send, send_pc, LoopPc.calling]
      simp only [Bool.true_eq_false, ↓reduceIte]
      omega
  · simp [Good, pc, ok] at good
  · cases ok
  · constructor
    · simpa [Good, pc] using good
    · refine heard.mono ?_
      simp [heardFrom, pc, sinceAfter, LoopPc.calling]

/-- A call that returns in time with the server's answer. -/
theorem returns_delivered (taken : loop.returns true = some next) :
    ∃ done, current loop = some done ∧ next.key = loop.key ∧
      (loop.pc = .inRegisterClient ∧ next.pc = .afterRegister ∧
          next.bregisterOk = (loop.bregisterOk || done.answer) ∨
        loop.pc = .inHeartBeatWork ∧ next.pc = .semWait ∧
          next.bregisterOk = (loop.bregisterOk && done.answer)) := by
  obtain ⟨before, call, success, split, result, -, -, point⟩ := returns_cases taken
  obtain ⟨done, executed, rfl⟩ := Option.map_eq_some_iff.mp result
  exact ⟨done, (current_of_calls split).trans executed, returns_key taken, point⟩

theorem secured_returns (inTime : loop.InTime slack latency since now)
    (believes : loop.pc = .inHeartBeatWork → loop.bregisterOk = true)
    (secured : Secured slack latency since registry loop)
    (taken : loop.returns true = some next) :
    Secured slack latency (sinceAfter now since loop next) registry next := by
  obtain ⟨good, heard⟩ := secured
  obtain ⟨done, executed, key, point⟩ := returns_delivered taken
  rcases point with ⟨pc, pcNext, ok⟩ | ⟨pc, pcNext, ok⟩
  · simp only [Good, pc, executed, Option.some.injEq, exists_eq_left'] at good
    simp only [NodeLoop.InTime, pc] at inTime
    constructor
    · simp [Good, pcNext, ok, good]
    · rw [key]
      refine heard.mono ?_
      simp only [heardFrom, pc, pcNext, sinceAfter, LoopPc.calling]
      simp only [Bool.false_eq_true, ↓reduceIte]
      omega
  · simp only [Good, pc, executed, Option.some.injEq, forall_eq'] at good
    simp only [NodeLoop.InTime, pc] at inTime
    constructor
    · simp [Good, pcNext, ok, good, believes pc]
    · rw [key]
      refine heard.mono ?_
      simp only [heardFrom, pc, pcNext, executed, sinceAfter, LoopPc.calling]
      simp only [Bool.false_eq_true, reduceCtorEq, ↓reduceIte]
      omega

theorem secured_executes (began : since ≤ now) {place : Nat} {request : RemoteCall}
    (isCall : loop.calls[place]? = some request) (fresh : request.executed = none)
    (secured : Secured slack latency since registry loop)
    (stays : Heard (serve registry loop request.kind now).1 loop.key
      (heardFrom slack latency since loop)) :
    Secured slack latency since (serve registry loop request.kind now).1
      (withExecution registry loop place request now) := by
  obtain ⟨good, heard⟩ := secured
  have present : registry.table loop.key ≠ none := Registry.mem_keys_iff.mp heard.mem_keys
  have answered : (serve registry loop request.kind now).2 = true := serve_answer.mpr (.inr present)
  have samePc : (withExecution registry loop place request now).pc = loop.pc := rfl
  rcases current_withExecution isCall registry now with unchanged | ⟨last, executes⟩
  · constructor
    · unfold Good at good ⊢
      rw [samePc, unchanged]
      exact good
    · unfold heardFrom at stays ⊢
      rw [samePc, unchanged]
      exact stays
  · have unexecuted : current loop = none := by
      rw [current, last]
      exact fresh
    cases pc : loop.pc with
    | inRegisterClient => simp [Good, pc, unexecuted] at good
    | inHeartBeatWork =>
        constructor
        · simp only [Good, samePc, pc, executes, Option.some.injEq, forall_eq']
          exact answered
        · refine ⟨now, ?_, ?_⟩
          · exact (serve_table loop.key).trans (if_pos ⟨rfl, answered⟩)
          · exact Int.le_trans heardFrom_le began
    | stopped => simp [Good, pc] at good
    | _ =>
        constructor
        · simp only [Good, samePc, pc] at good ⊢
          exact good
        · simp only [heardFrom, samePc, pc] at stays ⊢
          exact stays

end Moves

section Bounds

variable {slack latency : Nat} {loop : NodeLoop} {since now : Int}

theorem heardFrom_recent (margin : 30 * 1000 + slack + 2 * latency ≤ 60 * 1000)
    (inTime : loop.InTime slack latency since now) (good : Good loop) :
    now - heardFrom slack latency since loop ≤ 60000 := by
  unfold heardFrom
  cases pc : loop.pc with
  | stopped => simp [Good, pc] at good
  | inRegisterClient =>
      simp only [NodeLoop.InTime, pc] at inTime
      simp only
      omega
  | inHeartBeatWork =>
      simp only [NodeLoop.InTime, pc] at inTime
      simp only
      split <;> omega
  | _ =>
      simp only [NodeLoop.InTime, pc] at inTime
      simp only
      omega

theorem registersBy_le : registersBy slack latency since loop ≤
    since + 2 * (30 * 1000 + slack) + 3 * latency := by
  unfold registersBy
  cases loop.pc with
  | stopped =>
      simp only
      omega
  | _ =>
      simp only
      split <;> omega

theorem inTime_registersBy (inTime : loop.InTime slack latency since now)
    (runs : loop.pc ≠ .stopped) : now ≤ registersBy slack latency since loop := by
  unfold registersBy
  cases pc : loop.pc with
  | stopped => exact absurd pc runs
  | _ =>
      simp only [NodeLoop.InTime, pc] at inTime
      simp only
      split <;> omega

theorem registersBy_proceed {next : NodeLoop} (inTime : loop.InTime slack latency since now)
    (taken : loop.proceed false = some next) :
    registersBy slack latency (sinceAfter now since loop next) next ≤
      registersBy slack latency since loop := by
  rcases proceed_cases taken with ⟨pc, ok, rfl⟩ | ⟨pc, ok, rfl⟩ | ⟨pc, ok, rfl⟩ | ⟨pc, ok, rfl⟩ |
    ⟨pc, stop, rfl⟩ | ⟨pc, -, rfl⟩
  · simp only [NodeLoop.InTime, pc] at inTime
    simp [registersBy, sinceAfter, pc, ok, LoopPc.calling]
    omega
  · simp [registersBy, sinceAfter, pc, LoopPc.calling]
  · simp only [NodeLoop.InTime, pc] at inTime
    simp [registersBy, sinceAfter, pc, ok, LoopPc.calling]
    omega
  · simp [registersBy, sinceAfter, pc, LoopPc.calling]
  · cases stop
  · simp [registersBy, sinceAfter, pc, LoopPc.calling]

theorem registersBy_returns {next : NodeLoop} (inTime : loop.InTime slack latency since now)
    (taken : loop.returns true = some next) :
    registersBy slack latency (sinceAfter now since loop next) next ≤
      registersBy slack latency since loop := by
  obtain ⟨done, executed, -, point⟩ := returns_delivered taken
  rcases point with ⟨pc, pcNext, ok⟩ | ⟨pc, pcNext, ok⟩
  · simp only [NodeLoop.InTime, pc] at inTime
    simp only [registersBy, sinceAfter, pc, pcNext, executed, LoopPc.calling]
    simp
    split <;> omega
  · simp only [NodeLoop.InTime, pc] at inTime
    simp only [registersBy, sinceAfter, pc, pcNext, executed, ok, LoopPc.calling]
    cases answered : done.answer with
    | true =>
        simp [answered]
        split <;> omega
    | false =>
        simp [answered]
        omega

theorem kind_of_register (inv : LoopInv loop) (pc : loop.pc = .inRegisterClient)
    {request : RemoteCall} (last : loop.calls.getLast? = some request) :
    request.kind = .registClient := by
  have position := inv.ordered.position
  rw [pc] at position
  obtain ⟨before, sent, trace, isRegister, -, -⟩ := position
  have lastSent : loop.trace.getLast? = some sent := by rw [trace, List.getLast?_concat]
  rw [NodeLoop.trace, List.getLast?_map, last, Option.map_some] at lastSent
  have same : request.sent = sent := Option.some.inj lastSent
  rw [← isRegister, ← same]
  rfl

/-- A good answer to the last call registers the node. -/
theorem secured_answered {registry : Registry} (began : since ≤ now) {place : Nat}
    {request : RemoteCall} (calls : loop.pc.calling = true)
    (executes : current (withExecution registry loop place request now) =
      some (execution registry loop request.kind now))
    (answered : (serve registry loop request.kind now).2 = true) :
    Secured slack latency since (serve registry loop request.kind now).1
      (withExecution registry loop place request now) := by
  have samePc : (withExecution registry loop place request now).pc = loop.pc := rfl
  constructor
  · cases pc : loop.pc <;> simp_all [Good, execution, LoopPc.calling]
  · refine ⟨now, ?_, Int.le_trans heardFrom_le began⟩
    exact (serve_table loop.key).trans (if_pos ⟨rfl, answered⟩)

/-- The execution of the call registers the node, or the bound stays. -/
theorem registersBy_executes {registry : Registry} (inv : LoopInv loop) (began : since ≤ now)
    {place : Nat} {request : RemoteCall} (isCall : loop.calls[place]? = some request)
    (fresh : request.executed = none) :
    Secured slack latency since (serve registry loop request.kind now).1
        (withExecution registry loop place request now) ∨
      registersBy slack latency since (withExecution registry loop place request now) ≤
        registersBy slack latency since loop := by
  have samePc : (withExecution registry loop place request now).pc = loop.pc := rfl
  have sameOk : (withExecution registry loop place request now).bregisterOk = loop.bregisterOk := rfl
  rcases current_withExecution isCall registry now with unchanged | ⟨last, executes⟩
  · right
    apply Int.le_of_eq
    unfold registersBy
    rw [samePc, sameOk, unchanged]
  · have unexecuted : current loop = none := by
      rw [current, last]
      exact fresh
    cases pc : loop.pc with
    | inRegisterClient =>
        have kind := kind_of_register inv pc last
        exact .inl (secured_answered began (by rw [pc]; rfl) executes (serve_answer.mpr (.inl kind)))
    | inHeartBeatWork =>
        by_cases answered : (serve registry loop request.kind now).2 = true
        · exact .inl (secured_answered began (by rw [pc]; rfl) executes answered)
        · right
          simp [registersBy, samePc, pc, executes, unexecuted, execution, answered]
    | stopped =>
        right
        simp [registersBy, samePc, pc]
    | _ =>
        right
        simp [registersBy, samePc, sameOk, pc]

end Bounds

section Registry

variable {registry : Registry} {key : NodeKey} {bound now : Int}

theorem heard_step {system next : System} {action : Action} (valid : system.registry.Valid)
    (onClock : onTime now action = true) (taken : step system action = some next)
    (kept : ∀ node, action = .server (.failureRemoval node) → node.key ≠ key) (past : bound ≤ now)
    (heard : Heard system.registry key bound) : Heard next.registry key bound := by
  obtain ⟨stamp, registered, after⟩ := heard
  rcases step_table valid onClock taken key with same | ⟨stamped, -⟩ | ⟨-, node, removes, same⟩
  · exact ⟨stamp, same.trans registered, after⟩
  · exact ⟨now, stamped, past⟩
  · exact absurd same (kept node removes)

theorem heard_sweep (valid : registry.Valid) {lCheckTime : Int} (read : lCheckTime ≤ now)
    (recent : now - bound ≤ 60000) (heard : Heard registry key bound) :
    Heard (perform registry (.sweep lCheckTime)).1 key bound := by
  obtain ⟨stamp, registered, after⟩ := heard
  refine ⟨stamp, ?_, after⟩
  have spared : NodeMap.recent lCheckTime stamp = true := by
    simp only [NodeMap.recent, decide_eq_true_eq]
    omega
  rw [perform_table valid]
  simp [NodeMap.apply, registered, spared]

end Registry

theorem clusterStep_cases {now : Int} {cluster next : Cluster} {action : ClusterAction}
    (taken : clusterStep now cluster action = some next) :
    (∃ own, action = .system own ∧ onTime now own = true ∧
        step cluster.system own = some next.system ∧ next.service = cluster.service ∧
        ∀ index, next.loopSince index =
          if next.system.calling index = cluster.system.calling index then cluster.loopSince index
          else now) ∨
      (∃ lCheckTime, cluster.service = .locking lCheckTime ∧ next.service = .semWait ∧
        step cluster.system (.server (.sweep lCheckTime)) = some next.system ∧
        next.loopSince = cluster.loopSince) ∨
      next.system = cluster.system ∧ next.loopSince = cluster.loopSince ∧
        ∀ lCheckTime, next.service = .locking lCheckTime → lCheckTime = now := by
  cases action with
  | system own =>
      obtain ⟨onClock, taken⟩ := Option.ite_none_right_eq_some.mp taken
      obtain ⟨moved, stepped, rfl⟩ := Option.map_eq_some_iff.mp taken
      exact .inl ⟨own, rfl, onClock, stepped, rfl, fun _ => rfl⟩
  | checkTime =>
      simp only [clusterStep] at taken
      split at taken
      next =>
        cases taken
        exact .inr (.inr ⟨rfl, rfl, fun _ locking => (ServicePc.locking.inj locking).symm⟩)
      next => cases taken
  | sweep =>
      simp only [clusterStep] at taken
      split at taken
      next lCheckTime locking =>
        obtain ⟨moved, stepped, rfl⟩ := Option.map_eq_some_iff.mp taken
        exact .inr (.inl ⟨lCheckTime, locking, rfl, stepped, rfl⟩)
      next => cases taken
  | wake bstop =>
      simp only [clusterStep] at taken
      split at taken
      next =>
        cases taken
        refine .inr (.inr ⟨rfl, rfl, ?_⟩)
        intro lCheckTime locking
        cases bstop <;> cases locking
      next => cases taken

/-- What holds in every run in which the loop keeps its time. -/
structure Timely (slack latency index : Nat) (now : Int) (cluster : Cluster) : Prop where
  valid : cluster.system.registry.Valid
  read : ∀ lCheckTime, cluster.service = .locking lCheckTime → lCheckTime ≤ now
  loops : ∀ loop ∈ cluster.system.loops, LoopInv loop
  began : cluster.loopSince index ≤ now
  lasts : LoopLasts slack latency index now cluster

section Timely

variable {slack latency index : Nat} {now : Int} {cluster next : Cluster} {action : ClusterAction}

theorem Timely.start {timed : Timed Cluster} (started : serverStarted timed) :
    Timely slack latency index timed.now timed.state := by
  rw [serverStarted] at started
  rw [started]
  constructor
  · exact Registry.empty_valid
  · simp
  · simp [initial]
  · exact Int.le_refl timed.now
  · simp [LoopLasts, initial]

theorem Timely.passes {later : Int} (timely : Timely slack latency index now cluster)
    (passed : now ≤ later) (lasts : LoopLasts slack latency index later cluster) :
    Timely slack latency index later cluster where
  valid := timely.valid
  read lCheckTime locking := Int.le_trans (timely.read lCheckTime locking) passed
  loops := timely.loops
  began := Int.le_trans timely.began passed
  lasts := lasts

theorem calling_eq_iff {system after : System} {loop moved : NodeLoop}
    (found : system.loops[index]? = some loop) (foundNext : after.loops[index]? = some moved) :
    after.calling index = system.calling index ↔ moved.pc.calling = loop.pc.calling := by
  simp [System.calling, found, foundNext]

theorem inTime_step {registry : Registry} {since : Int} {own : Action} {loop moved : NodeLoop}
    (moves : LoopStep registry index own loop moved) (inTime : loop.InTime slack latency since now) :
    moved.InTime slack latency (sinceAfter now since loop moved) now := by
  cases moves with
  | stays =>
      rw [sinceAfter_self]
      exact inTime
  | proceeds taken => exact inTime_proceed inTime taken
  | returns taken => exact inTime_returns taken
  | executes =>
      rw [sinceAfter_withExecution]
      exact inTime

theorem Timely.system {own : Action} (timely : Timely slack latency index now cluster)
    (stepped : step cluster.system own = some next.system)
    (sameService : next.service = cluster.service)
    (marks : ∀ index, next.loopSince index =
      if next.system.calling index = cluster.system.calling index then cluster.loopSince index
      else now) : Timely slack latency index now next := by
  constructor
  · exact step_valid timely.valid stepped
  · rw [sameService]
    exact timely.read
  · exact step_invariant timely.loops stepped
  · rw [marks]
    split
    · exact timely.began
    · exact Int.le_refl now
  · intro moved foundNext
    cases found : cluster.system.loops[index]? with
    | none =>
        obtain ⟨NodeIp, NodePort, rfl⟩ := step_new stepped found foundNext
        have marked : next.loopSince index = now := by
          rw [marks, if_neg (by simp [System.calling, found, Option.mem_def.mp foundNext])]
        simp only [NodeLoop.InTime, NodeLoop.constructed, marked]
        omega
    | some loop =>
        obtain ⟨other, foundOther, moves⟩ := step_loop stepped found
        cases foundOther.symm.trans foundNext
        have marked : next.loopSince index =
            sinceAfter now (cluster.loopSince index) loop moved := by
          rw [marks, sinceAfter]
          exact if_congr (calling_eq_iff found foundNext) rfl rfl
        rw [marked]
        exact inTime_step moves (timely.lasts loop found)

theorem Timely.acts (timely : Timely slack latency index now cluster)
    (taken : clusterStep now cluster action = some next) :
    Timely slack latency index now next := by
  rcases clusterStep_cases taken with ⟨own, -, -, stepped, sameService, marks⟩ |
    ⟨lCheckTime, -, waits, stepped, same⟩ | ⟨sameSystem, same, read⟩
  · exact timely.system stepped sameService marks
  · have sameLoops : next.system.loops = cluster.system.loops :=
      (congrArg System.loops (Option.some.inj stepped)).symm
    constructor
    · exact step_valid timely.valid stepped
    · simp [waits]
    · exact step_invariant timely.loops stepped
    · rw [same]
      exact timely.began
    · rw [LoopLasts, sameLoops, same]
      exact timely.lasts
  · constructor
    · rw [sameSystem]
      exact timely.valid
    · intro lCheckTime locking
      exact Int.le_of_eq (read lCheckTime locking)
    · rw [sameSystem]
      exact timely.loops
    · rw [same]
      exact timely.began
    · rw [LoopLasts, sameSystem, same]
      exact timely.lasts

theorem fair_cases (fair : faultless index cluster action)
    (taken : clusterStep now cluster action = some next) {loop : NodeLoop}
    (found : cluster.system.loops[index]? = some loop) :
    ∃ moved, next.system.loops[index]? = some moved ∧ moved.key = loop.key ∧
      next.loopSince index = sinceAfter now (cluster.loopSince index) loop moved ∧
      (moved = loop ∨ loop.proceed false = some moved ∨ loop.returns true = some moved ∨
        ∃ place request, loop.calls[place]? = some request ∧ request.executed = none ∧
          moved = withExecution cluster.system.registry loop place request now ∧
          next.system.registry = (serve cluster.system.registry loop request.kind now).1) := by
  rcases clusterStep_cases taken with ⟨own, rfl, onClock, stepped, -, marks⟩ |
    ⟨lCheckTime, -, -, stepped, same⟩ | ⟨sameSystem, same, -⟩
  · obtain ⟨moved, foundNext, moves⟩ := step_loop stepped found
    refine ⟨moved, foundNext, moves.key, ?_, ?_⟩
    · rw [marks, sinceAfter]
      exact if_congr (calling_eq_iff found foundNext) rfl rfl
    · cases moves with
      | stays => exact .inl rfl
      | @proceeds bstop _ _ proceeded =>
          have goesOn : bstop = false := fair rfl
          rw [goesOn] at proceeded
          exact .inr (.inl proceeded)
      | @returns delivered _ _ returned =>
          have answers : delivered = true := fair rfl
          rw [answers] at returned
          exact .inr (.inr (.inl returned))
      | @executes place clock _ request isCall fresh =>
          have sameClock : clock = now := by simpa [onTime] using onClock
          subst sameClock
          refine .inr (.inr (.inr ⟨place, request, isCall, fresh, rfl, ?_⟩))
          simp only [step, execute, found, isCall, fresh, Option.bind_eq_bind, Option.bind_some,
            Option.isSome_none, Bool.false_eq_true, ↓reduceIte, Option.some.injEq] at stepped
          exact (congrArg System.registry stepped).symm
  · have sameLoops : next.system.loops = cluster.system.loops :=
      (congrArg System.loops (Option.some.inj stepped)).symm
    exact ⟨loop, by rw [sameLoops, found], rfl, by rw [same, sinceAfter_self], .inl rfl⟩
  · exact ⟨loop, by rw [sameSystem, found], rfl, by rw [same, sinceAfter_self], .inl rfl⟩

/-- A stamp of the last 60 seconds stays where nothing fails. -/
theorem fair_heard (timely : Timely slack latency index now cluster)
    (fair : faultless index cluster action) (taken : clusterStep now cluster action = some next)
    {loop : NodeLoop} (found : cluster.system.loops[index]? = some loop) {bound : Int}
    (past : bound ≤ now) (recent : now - bound ≤ 60000)
    (heard : Heard cluster.system.registry loop.key bound) :
    Heard next.system.registry loop.key bound := by
  rcases clusterStep_cases taken with ⟨own, rfl, onClock, stepped, -, -⟩ |
    ⟨lCheckTime, locking, -, stepped, -⟩ | ⟨sameSystem, -, -⟩
  · refine heard_step timely.valid onClock stepped ?_ past heard
    rintro node rfl
    exact fair loop found
  · have swept : next.system.registry = (perform cluster.system.registry (.sweep lCheckTime)).1 :=
      (congrArg System.registry (Option.some.inj stepped)).symm
    rw [swept]
    exact heard_sweep timely.valid (timely.read lCheckTime locking) recent heard
  · rw [sameSystem]
    exact heard

/-- A good loop of a node that is heard of stays one. -/
theorem secured_acts (margin : 30 * 1000 + slack + 2 * latency ≤ 60 * 1000)
    (timely : Timely slack latency index now cluster) (fair : faultless index cluster action)
    (taken : clusterStep now cluster action = some next) {loop : NodeLoop}
    (found : cluster.system.loops[index]? = some loop)
    (secured : Secured slack latency (cluster.loopSince index) cluster.system.registry loop) :
    ∃ moved, next.system.loops[index]? = some moved ∧ moved.key = loop.key ∧
      Secured slack latency (next.loopSince index) next.system.registry moved := by
  have inTime := timely.lasts loop found
  have recent := heardFrom_recent margin inTime secured.good
  have heard := fair_heard timely fair taken found (Int.le_trans heardFrom_le timely.began) recent
    secured.heard
  have kept : Secured slack latency (cluster.loopSince index) next.system.registry loop :=
    ⟨secured.good, heard⟩
  obtain ⟨moved, foundNext, sameKey, marked, moves⟩ := fair_cases fair taken found
  refine ⟨moved, foundNext, sameKey, ?_⟩
  rw [marked]
  rcases moves with rfl | proceeded | returned | ⟨place, request, isCall, fresh, rfl, served⟩
  · rw [sinceAfter_self]
    exact kept
  · exact secured_proceed inTime kept proceeded
  · refine secured_returns inTime ?_ kept returned
    intro calling
    have position := (timely.loops loop (List.mem_of_getElem? found)).ordered.position
    rw [calling] at position
    obtain ⟨_, _, _, _, _, _, _, ok⟩ := position
    exact ok
  · rw [sinceAfter_withExecution, served]
    rw [served] at heard
    exact secured_executes timely.began isCall fresh secured heard

theorem registersBy_acts (timely : Timely slack latency index now cluster)
    (fair : faultless index cluster action) (taken : clusterStep now cluster action = some next)
    {loop : NodeLoop} (found : cluster.system.loops[index]? = some loop) :
    ∃ moved, next.system.loops[index]? = some moved ∧ moved.key = loop.key ∧
      (Secured slack latency (next.loopSince index) next.system.registry moved ∨
        registersBy slack latency (next.loopSince index) moved ≤
          registersBy slack latency (cluster.loopSince index) loop) := by
  have inTime := timely.lasts loop found
  obtain ⟨moved, foundNext, sameKey, marked, moves⟩ := fair_cases fair taken found
  refine ⟨moved, foundNext, sameKey, ?_⟩
  rw [marked]
  rcases moves with rfl | proceeded | returned | ⟨place, request, isCall, fresh, rfl, served⟩
  · rw [sinceAfter_self]
    exact .inr (Int.le_refl _)
  · exact .inr (registersBy_proceed inTime proceeded)
  · exact .inr (registersBy_returns inTime returned)
  · rw [sinceAfter_withExecution, served]
    exact registersBy_executes (timely.loops loop (List.mem_of_getElem? found)) timely.began isCall
      fresh

theorem fair_runs (fair : faultless index cluster action)
    (taken : clusterStep now cluster action = some next) {loop : NodeLoop}
    (found : cluster.system.loops[index]? = some loop) (runs : loop.pc ≠ .stopped) :
    ∃ moved, next.system.loops[index]? = some moved ∧ moved.key = loop.key ∧
      moved.pc ≠ .stopped := by
  obtain ⟨moved, foundNext, sameKey, -, moves⟩ := fair_cases fair taken found
  refine ⟨moved, foundNext, sameKey, ?_⟩
  rcases moves with rfl | proceeded | returned | ⟨place, request, -, -, rfl, -⟩
  · exact runs
  · rcases proceed_cases proceeded with ⟨-, -, rfl⟩ | ⟨-, -, rfl⟩ | ⟨-, -, rfl⟩ | ⟨-, -, rfl⟩ |
      ⟨-, stop, -⟩ | ⟨-, -, rfl⟩ <;> simp_all
  · obtain ⟨-, -, -, ⟨-, pc, -⟩ | ⟨-, pc, -⟩⟩ := returns_delivered returned <;> simp [pc]
  · exact runs

end Timely

/-- The instant by which the node of the loop is registered. -/
def deadline (slack latency index : Nat) (cluster : Cluster) : Int :=
  match cluster.system.loops[index]? with
  | some loop => registersBy slack latency (cluster.loopSince index) loop
  | none => 0

def SecuredNode (slack latency index : Nat) (key : NodeKey) (cluster : Cluster) : Prop :=
  ∃ loop, cluster.system.loops[index]? = some loop ∧ loop.key = key ∧
    Secured slack latency (cluster.loopSince index) cluster.system.registry loop

theorem timely_of_reachable {slack latency index : Nat}
    {permitted : Cluster → ClusterAction → Prop} {timed : Timed Cluster}
    (reached : Reachable (timedStep clusterStep) serverStarted
      (timely (LoopLasts slack latency index) permitted) timed) :
    Timely slack latency index timed.now timed.state := by
  refine Timed.invariant (Timely slack latency index) ?_ ?_ ?_ reached
  · intro first started
    exact Timely.start started
  · intro now later cluster holds passed lasts
    exact holds.passes passed lasts
  · intro now cluster action next holds _ taken
    exact holds.acts taken

/-- In every run in which the loop of a node keeps its time: whatever calls were lost, executed
late or failed before, from twice its round of 30 seconds and `slack` and three times `latency`
after the last fault on, the node is registered as long as nothing else fails. -/
theorem registered_within {slack latency index : Nat}
    (margin : 30 * 1000 + slack + 2 * latency ≤ 60 * 1000) {before timed : Timed Cluster}
    (faulty : Reachable (timedStep clusterStep) serverStarted
      (timely (LoopLasts slack latency index) anyAction) before)
    {loop : NodeLoop} (found : before.state.system.loops[index]? = some loop)
    (runs : loop.pc ≠ .stopped)
    (reached : Reachable (timedStep clusterStep) (· = before)
      (timely (LoopLasts slack latency index) (faultless index)) timed)
    (late : before.now + 2 * (30 * 1000 + slack) + 3 * latency < timed.now) :
    loop.key ∈ timed.state.system.registry.keys := by
  have settled : SecuredNode slack latency index loop.key timed.state := by
    refine Timed.settles
      (fun now cluster => Timely slack latency index now cluster ∧
        ∃ moved, cluster.system.loops[index]? = some moved ∧ moved.key = loop.key ∧
          moved.pc ≠ .stopped)
      (SecuredNode slack latency index loop.key) (deadline slack latency index)
      ?_ ?_ ?_ ?_ ?_ ?_ reached late
    · rintro first rfl
      have timely := timely_of_reachable faulty
      refine ⟨⟨timely, loop, found, rfl, runs⟩, ?_⟩
      have bound : registersBy slack latency (first.state.loopSince index) loop ≤
          first.state.loopSince index + 2 * (30 * 1000 + slack) + 3 * latency :=
        registersBy_le
      have began := timely.began
      simp only [deadline, found]
      omega
    · intro now later cluster holds passed lasts
      exact ⟨holds.1.passes passed lasts, holds.2⟩
    · rintro now cluster action next ⟨timely, own, isOwn, sameKey, ownRuns⟩ fair taken
      obtain ⟨moved, foundNext, movedKey, movedRuns⟩ := fair_runs fair taken isOwn ownRuns
      exact ⟨timely.acts taken, moved, foundNext, movedKey.trans sameKey, movedRuns⟩
    · rintro now cluster action next ⟨timely, -⟩ fair taken ⟨own, isOwn, sameKey, secured⟩
      obtain ⟨moved, foundNext, movedKey, kept⟩ :=
        secured_acts margin timely fair taken isOwn secured
      exact ⟨moved, foundNext, movedKey.trans sameKey, kept⟩
    · rintro now cluster action next ⟨timely, own, isOwn, sameKey, -⟩ fair taken
      obtain ⟨moved, foundNext, movedKey, secured | lower⟩ :=
        registersBy_acts timely fair taken isOwn
      · exact .inl ⟨moved, foundNext, movedKey.trans sameKey, secured⟩
      · right
        simp only [deadline, foundNext, isOwn]
        exact lower
    · rintro now cluster ⟨timely, own, isOwn, -, ownRuns⟩
      right
      simp only [deadline, isOwn]
      exact inTime_registersBy (timely.lasts own isOwn) ownRuns
  obtain ⟨moved, -, sameKey, secured⟩ := settled
  rw [← sameKey]
  exact secured.heard.mem_keys

/-- A node registers, a request fails on it, and the answer to its heartbeat is lost. -/
def faults : List (TimedAction ClusterAction) :=
  [.act (.system (.start "10.0.0.2" 6002)), .act (.system (.proceed 0 false)),
    .act (.system (.execute 0 0 1000)), .act (.system (.returns 0 true)),
    .act (.system (.proceed 0 false)),
    .act (.system (.server (.failureRemoval ⟨"10.0.0.2", 6002, 1000⟩))),
    .act (.system (.execute 0 1 1000)), .act (.system (.returns 0 false))]

/-- Two rounds of the node after that. -/
def twoRounds : List (TimedAction ClusterAction) :=
  [.delay 30000, .act (.system (.proceed 0 false)), .act (.system (.proceed 0 false)), .delay 5,
    .act (.system (.execute 0 2 31005)), .act (.system (.returns 0 true)),
    .act (.system (.proceed 0 false)), .act (.system (.execute 0 3 31005)),
    .act (.system (.returns 0 true)), .delay 30005, .act (.system (.proceed 0 false)),
    .act (.system (.proceed 0 false)), .act (.system (.proceed 0 false)),
    .act (.system (.execute 0 4 61010)), .act (.system (.returns 0 true)), .delay 100]

theorem faults_timely :
    Permitted (timedStep clusterStep) (timely (LoopLasts 10 20 0) anyAction) startedAtOneSecond
      faults := by
  decide

theorem faults_finish :
    (run (timedStep clusterStep) startedAtOneSecond faults).isSome = true := by
  decide

def afterFaults : Timed Cluster :=
  (run (timedStep clusterStep) startedAtOneSecond faults).get faults_finish

theorem twoRounds_timely :
    Permitted (timedStep clusterStep) (timely (LoopLasts 10 20 0) (faultless 0)) afterFaults
      twoRounds := by
  decide

theorem twoRounds_finish : (run (timedStep clusterStep) afterFaults twoRounds).isSome = true := by
  decide

theorem afterFaults_loop : (afterFaults.state.system.loops[0]?).isSome = true := by decide

theorem registered_within_twoRounds :
    let final := (run (timedStep clusterStep) afterFaults twoRounds).get twoRounds_finish
    ("10.0.0.2", 6002) ∉ afterFaults.state.system.registry.keys ∧
      ("10.0.0.2", 6002) ∈ final.state.system.registry.keys := by
  have faulty := Reachable.of_run startedAtOneSecond_started faults_timely faults_finish
  have atStart : Reachable (timedStep clusterStep) (· = afterFaults)
      (timely (LoopLasts 10 20 0) (faultless 0)) afterFaults := .start rfl
  have reached := atStart.append_run twoRounds_timely (Option.some_get twoRounds_finish).symm
  have isLoop := (Option.some_get afterFaults_loop).symm
  exact ⟨by decide, registered_within (by decide) faulty isLoop (by decide) reached (by decide)⟩

end DcCluster.HeartBeat
