import DcCluster.Lib.ThreadTable
import DcCluster.Mq.ReconnectCore

/-!
Reconnect threads of one `MqConnection`, in runs without `DisConn`. At most one
of them has not yet cleared `m_bReConn`, the flag is set all that time, and a
thread that `ReConn` joins while it holds the lock has nothing left to do.
-/

namespace DcCluster.Reconnect

open DcCluster.Lib

/-- A thread that can be inside `ReConn` without being a reconnect thread. -/
inductive Visitor
  | caller
  | callback (connection : Nat)

@[grind] def Visitor.thread : Visitor → Option ReConnPc → Thread
  | .caller, pc => .caller (.inReConn pc)
  | .callback connection, pc => .callback connection (.inReConn pc)

/-- What one action can do: a call of `Conn` or a callback begins, or one thread
takes the next step of its own code and may start a reconnect thread. -/
inductive Move (system : System) : Action → System → Prop
  | call : Move system .callConn
      { system with threads := system.threads ++ [.caller (.conn .createConnection)] }
  | report {connection : Nat} : system.members.connection = some connection →
      system.members.listening = true →
      Move system .onException
        { system with threads := system.threads ++ [.callback connection (.reConn .lock)] }
  | caller {index : Nat} {outcome : Bool} {pc : ConnPc} {next : Step (ConnPc ⊕ ConnResult)} :
      system.threads[index]? = some (.caller (.conn pc)) →
      conn system.members outcome pc = some next →
      Move system (.thread index outcome)
        { members := next.members
          threads := system.threads.set index (.caller (.inConn next.pc)) ++ newThreads next.started }
  | visitor {index : Nat} {outcome : Bool} {visitor : Visitor} {pc : ReConnPc}
      {next : Step (Option ReConnPc)} :
      system.threads[index]? = some (visitor.thread (some pc)) →
      reConn system outcome pc = some next →
      Move system (.thread index outcome)
        { members := next.members
          threads := system.threads.set index (visitor.thread next.pc) ++ newThreads next.started }
  | worker {index : Nat} {outcome : Bool} {pc : WorkPc} {next : Step WorkPc} :
      system.threads[index]? = some (.reconnect pc) →
      doReconnWork system outcome pc = some next →
      Move system (.thread index outcome)
        { members := next.members
          threads := system.threads.set index (.reconnect next.pc) ++ newThreads next.started }

theorem step_move {system next : System} {action : Action} (taken : step system action = some next) :
    Move system action next := by
  cases action with
  | callConn =>
      simp only [step, Option.some.injEq] at taken
      subst next
      exact .call
  | onException =>
      simp only [step] at taken
      split at taken
      · simp at taken
      · rename_i connection current
        split at taken
        next listening =>
          simp only [Option.some.injEq] at taken
          subst next
          exact .report current listening
        next => simp at taken
  | thread index outcome =>
      simp only [step, stepThread] at taken
      split at taken
      · simp at taken
      · rename_i thread found
        simp only [Option.map_eq_some_iff] at taken
        obtain ⟨moved, advanced, rfl⟩ := taken
        rcases thread with (pc | pc | _) | ⟨connection, pc | _⟩ | pc
        all_goals simp only [advance, Option.map_eq_some_iff, reduceCtorEq] at advanced
        · obtain ⟨next, connected, rfl⟩ := advanced
          exact .caller found connected
        · obtain ⟨next, entered, rfl⟩ := advanced
          exact @Move.visitor system index outcome .caller pc next found entered
        · obtain ⟨next, entered, rfl⟩ := advanced
          exact @Move.visitor system index outcome (.callback connection) pc next found entered
        · obtain ⟨next, worked, rfl⟩ := advanced
          exact .worker found worked

/-! Points of the three kinds of threads. -/

@[grind] def ReConnPc.holdsLock : ReConnPc → Bool
  | .lock => false
  | _ => true

/-- Past the test of `m_bReConn` and before the creation of the thread. -/
@[grind] def ReConnPc.deciding : ReConnPc → Bool
  | .testOld | .postSem | .destroySem | .clearSem | .readThrd | .join _ | .clearThrd
  | .createSem | .createThrd | .pthreadCreate => true
  | _ => false

@[grind] def ReConnPc.joining : ReConnPc → Bool
  | .postSem | .destroySem | .clearSem | .readThrd | .join _ => true
  | _ => false

@[grind] def ReConnPc.atPthreadCreate : ReConnPc → Bool
  | .pthreadCreate => true
  | _ => false

/-- Inside `swartz_thread_wait` with this handle. -/
@[grind] def ReConnPc.waitsOn (handle : Option Nat) : ReConnPc → Bool
  | .join waited => waited == handle
  | _ => false

@[grind] def ReConnPc.settingFlag : ReConnPc → Bool
  | .setFlag => true
  | _ => false

@[grind] def CallerPc.inside (point : ReConnPc → Bool) : CallerPc → Bool
  | .reConn pc => point pc
  | _ => false

@[grind] def CallbackPc.inside (point : ReConnPc → Bool) : CallbackPc → Bool
  | .reConn pc => point pc
  | .returned => false

@[grind] def WorkPc.inside (point : ReConnPc → Bool) : WorkPc → Bool
  | .reConn pc => point pc
  | _ => false

@[grind] def Thread.inside (point : ReConnPc → Bool) : Thread → Bool
  | .caller pc => pc.inside point
  | .callback _ pc => pc.inside point
  | .reconnect pc => pc.inside point

@[grind] def WorkPc.locked : WorkPc → Bool
  | .destroy | .destroyUnlock | .rebuild | .rebuildUnlock | .clearFlag | .finalUnlock => true
  | _ => false

/-- Has not cleared `m_bReConn` yet. -/
@[grind] def WorkPc.active : WorkPc → Bool
  | .finalUnlock | .leaving | .exited => false
  | _ => true

@[grind] def WorkPc.early : WorkPc → Bool
  | .setFlag | .destroyLock => true
  | _ => false

@[grind] def WorkPc.selfCall : WorkPc → Bool
  | .reConn _ => true
  | _ => false

@[grind] def WorkPc.retired : WorkPc → Bool
  | .leaving | .exited => true
  | _ => false

@[grind] def Thread.working (point : WorkPc → Bool) : Thread → Bool
  | .reconnect pc => point pc
  | _ => false

@[grind] def Thread.holdsLock (thread : Thread) : Bool :=
  thread.inside ReConnPc.holdsLock || thread.working WorkPc.locked

theorem Thread.inside_mono {point wider : ReConnPc → Bool}
    (implied : ∀ pc, point pc = true → wider pc = true) (thread : Thread)
    (here : thread.inside point = true) : thread.inside wider = true := by
  rcases thread with (pc | pc | _) | ⟨connection, pc | _⟩ | pc
  · cases here
  · exact implied pc here
  · cases here
  · exact implied pc here
  · cases here
  · cases pc with
    | reConn pc => exact implied pc here
    | _ => cases here

theorem countP_moved (point : Thread → Bool) {threads : List Thread} {index : Nat} {old : Thread}
    (found : threads[index]? = some old) (new : Thread) (started : Bool) :
    (threads.set index new ++ newThreads started).countP point + (point old).toNat =
      threads.countP point + (point new).toNat + (started && point (.reconnect .setFlag)).toNat := by
  have balance := countP_set_balance point found new
  rw [List.countP_append]
  cases started <;> cases here : point (.reconnect .setFlag) <;> simp [newThreads, here] <;> omega

/-! What a step of each function does to the members. -/

section Local

variable {system : System} {outcome : Bool}

theorem conn_frame {members : Members} {pc : ConnPc} {next : Step (ConnPc ⊕ ConnResult)}
    (moved : conn members outcome pc = some next) :
    next.started = false ∧ next.members.lockReConn = members.lockReConn ∧
      next.members.bReConn = members.bReConn ∧ next.members.sem = members.sem ∧
      next.members.thrdReConn = members.thrdReConn ∧ next.members.tokens = members.tokens ∧
      (next.pc = .inr .callReConn → members.bReConn = false) := by
  cases pc <;> grind -ring -linarith

theorem doReconnWork_conn {pc : ConnPc} {next : Step WorkPc}
    (moved : doReconnWork system outcome (.conn pc) = some next) :
    (next.started = false ∧ next.members.lockReConn = system.members.lockReConn ∧
      next.members.bReConn = system.members.bReConn ∧ next.members.sem = system.members.sem ∧
      next.members.thrdReConn = system.members.thrdReConn ∧
      next.members.tokens = system.members.tokens) ∧
    ((∃ later, next.pc = .conn later) ∨ next.pc = .rebuildLock ∨ next.pc = .readSem ∨
      next.pc = .reConn .lock ∧ system.members.bReConn = false) := by
  simp only [doReconnWork, Option.map_eq_some_iff] at moved
  obtain ⟨⟨members, reached, started⟩, connected, rfl⟩ := moved
  have frame := conn_frame connected
  refine ⟨by grind -ring -linarith, ?_⟩
  rcases reached with later | _ | _ | _
  · exact .inl ⟨later, rfl⟩
  · exact .inr (.inl rfl)
  · exact .inr (.inr (.inl rfl))
  · exact .inr (.inr (.inr ⟨rfl, frame.2.2.2.2.2.2 rfl⟩))

theorem reConn_lock {pc : ReConnPc} {next : Step (Option ReConnPc)}
    (moved : reConn system outcome pc = some next)
    (held : pc.holdsLock = true → system.members.lockReConn = true) :
    next.members.lockReConn.toNat + pc.holdsLock.toNat =
      system.members.lockReConn.toNat + (next.pc.any ReConnPc.holdsLock).toNat := by
  cases pc <;> grind -ring -linarith

theorem reConn_starts {pc : ReConnPc} {next : Step (Option ReConnPc)}
    (moved : reConn system outcome pc = some next) :
    (next.pc.any ReConnPc.settingFlag).toNat = next.started.toNat ∧
      next.started.toNat ≤ pc.deciding.toNat ∧
      (next.pc.any ReConnPc.deciding).toNat + next.started.toNat + pc.settingFlag.toNat ≤ 1 ∧
      (next.pc.any ReConnPc.deciding).toNat + system.members.bReConn.toNat ≤
        pc.deciding.toNat + 1 := by
  have bound := Bool.toNat_le system.members.bReConn
  cases pc <;> grind -ring -linarith

theorem reConn_flag {pc : ReConnPc} {next : Step (Option ReConnPc)}
    (moved : reConn system outcome pc = some next) :
    next.members.bReConn.toNat ≤ system.members.bReConn.toNat + pc.settingFlag.toNat ∧
      system.members.bReConn.toNat ≤ next.members.bReConn.toNat ∧
      pc.settingFlag.toNat ≤ next.members.bReConn.toNat := by
  have bound := Bool.toNat_le system.members.bReConn
  cases pc <;> grind -ring -linarith

/-- A statement of `ReConn` leaves the handle alone, clears it, stores a new one, or creates
the thread of the one that is stored. -/
theorem reConn_handle {pc : ReConnPc} {next : Step (Option ReConnPc)}
    (moved : reConn system outcome pc = some next) :
    (next.members.handles = system.members.handles ∧ next.started = false ∧
        next.pc.any ReConnPc.atPthreadCreate = false ∧
        (next.members.thrdReConn = system.members.thrdReConn ∧ pc.atPthreadCreate = false ∨
          next.members.thrdReConn = none ∧ pc.joining = false ∧ pc.holdsLock = true ∧
            next.pc.any ReConnPc.joining = false)) ∨
      (pc = .createThrd ∧ next.pc = some .pthreadCreate ∧ next.started = false ∧
        next.members.thrdReConn = some system.members.handles.length ∧
        next.members.handles = system.members.handles ++ [none]) ∨
      (pc = .pthreadCreate ∧ outcome = true ∧ next.pc = some .setFlag ∧ next.started = true ∧
        next.members.thrdReConn = system.members.thrdReConn ∧
        ∃ handle, system.members.thrdReConn = some handle ∧
          next.members.handles =
            system.members.handles.set handle (some system.threads.length)) := by
  cases pc <;> grind -ring -linarith

theorem reConn_joining {pc : ReConnPc} {next : Step (Option ReConnPc)}
    (moved : reConn system outcome pc = some next)
    (joins : next.pc.any ReConnPc.joining = true) :
    next.members.thrdReConn = system.members.thrdReConn ∧
      (pc.joining = true ∨ system.members.thrdReConn.isSome = true) := by
  cases pc <;> grind -ring -linarith

theorem reConn_waits {pc : ReConnPc} {next : Step (Option ReConnPc)}
    (moved : reConn system outcome pc = some next) {handle : Option Nat}
    (waits : next.pc.any (ReConnPc.waitsOn handle) = true) :
    pc = .readThrd ∧ handle = system.members.thrdReConn ∧
      next.members.thrdReConn = system.members.thrdReConn := by
  cases pc <;> grind -ring -linarith

theorem conn_handles {members : Members} {pc : ConnPc} {next : Step (ConnPc ⊕ ConnResult)}
    (moved : conn members outcome pc = some next) : next.members.handles = members.handles := by
  cases pc <;> grind -ring -linarith

theorem doReconnWork_handles {pc : WorkPc} {next : Step WorkPc}
    (moved : doReconnWork system outcome pc = some next) (outside : pc.selfCall = false) :
    next.members.handles = system.members.handles := by
  cases pc with
  | conn pc =>
      simp only [doReconnWork, Option.map_eq_some_iff] at moved
      obtain ⟨inner, connected, rfl⟩ := moved
      exact conn_handles connected
  | reConn pc => cases outside
  | _ => grind -ring -linarith

section Worker

variable {pc : WorkPc} {next : Step WorkPc} (moved : doReconnWork system outcome pc = some next)
  (outside : pc.selfCall = false)
include moved outside

theorem doReconnWork_frame :
    next.started = false ∧ next.members.thrdReConn = system.members.thrdReConn ∧
      next.members.sem = system.members.sem := by
  cases pc with
  | conn pc =>
      have frame := (doReconnWork_conn moved).1
      exact ⟨frame.1, frame.2.2.2.2.1, frame.2.2.2.1⟩
  | reConn pc => cases outside
  | _ => grind -ring -linarith

theorem doReconnWork_lock (held : pc.locked = true → system.members.lockReConn = true) :
    next.members.lockReConn.toNat + pc.locked.toNat =
      system.members.lockReConn.toNat + next.pc.locked.toNat := by
  cases pc with
  | conn pc =>
      obtain ⟨frame, ⟨later, reached⟩ | reached | reached | ⟨reached, cleared⟩⟩ :=
        doReconnWork_conn moved
      all_goals grind -ring -linarith
  | reConn pc => cases outside
  | _ => grind -ring -linarith

theorem doReconnWork_flag :
    next.pc.active.toNat ≤ pc.active.toNat ∧
      next.members.bReConn.toNat ≤ system.members.bReConn.toNat + next.pc.active.toNat ∧
      next.members.bReConn.toNat + pc.active.toNat ≤ 1 + next.pc.active.toNat ∧
      system.members.bReConn.toNat + next.pc.active.toNat ≤ next.members.bReConn.toNat + 1 ∧
      system.members.bReConn.toNat ≤ next.members.bReConn.toNat + pc.active.toNat := by
  have bound := Bool.toNat_le system.members.bReConn
  cases pc with
  | conn pc =>
      obtain ⟨frame, ⟨later, reached⟩ | reached | reached | ⟨reached, cleared⟩⟩ :=
        doReconnWork_conn moved
      all_goals grind -ring -linarith
  | reConn pc => cases outside
  | _ => grind -ring -linarith

theorem doReconnWork_round :
    pc.early.toNat + system.members.lockReConn.toNat ≤ 1 + next.pc.early.toNat ∧
      next.pc.selfCall.toNat + system.members.bReConn.toNat ≤ 1 ∧
      next.pc.selfCall.toNat ≤ pc.active.toNat ∧
      next.pc.selfCall.toNat + pc.early.toNat ≤ 1 := by
  have flagBound := Bool.toNat_le system.members.bReConn
  have lockBound := Bool.toNat_le system.members.lockReConn
  cases pc with
  | conn pc =>
      obtain ⟨frame, ⟨later, reached⟩ | reached | reached | ⟨reached, cleared⟩⟩ :=
        doReconnWork_conn moved
      all_goals grind -ring -linarith
  | reConn pc => cases outside
  | _ => grind -ring -linarith

end Worker

end Local

@[simp] theorem Visitor.inside_thread (visitor : Visitor) (pc : Option ReConnPc)
    (point : ReConnPc → Bool) : (visitor.thread pc).inside point = pc.any point := by
  cases visitor <;> cases pc <;> rfl

@[simp] theorem Visitor.working_thread (visitor : Visitor) (pc : Option ReConnPc)
    (point : WorkPc → Bool) : (visitor.thread pc).working point = false := by
  cases visitor <;> rfl

@[simp] theorem Visitor.holdsLock_thread (visitor : Visitor) (pc : Option ReConnPc) :
    (visitor.thread pc).holdsLock = pc.any ReConnPc.holdsLock := by
  simp [Thread.holdsLock]

/-- Two kinds of points behind the lock are never taken by two threads. -/
theorem inside_apart {first second : ReConnPc → Bool}
    (apart : ∀ pc, (first pc).toNat + (second pc).toNat ≤ pc.holdsLock.toNat)
    (threads : List Thread) :
    threads.countP (Thread.inside first) + threads.countP (Thread.inside second) ≤
      threads.countP Thread.holdsLock := by
  refine countP_add_le (fun thread => ?_) threads
  rcases thread with (pc | pc | _) | ⟨connection, pc | _⟩ | pc
  · simp [Thread.inside, CallerPc.inside]
  · simpa [Thread.inside, CallerPc.inside, Thread.holdsLock, Thread.working] using apart pc
  · simp [Thread.inside, CallerPc.inside]
  · simpa [Thread.inside, CallbackPc.inside, Thread.holdsLock, Thread.working] using apart pc
  · simp [Thread.inside, CallbackPc.inside]
  · cases pc with
    | reConn pc =>
        simpa [Thread.inside, WorkPc.inside, Thread.holdsLock, Thread.working, WorkPc.locked]
          using apart pc
    | _ => simp [Thread.inside, WorkPc.inside]

theorem holders_apart (threads : List Thread) :
    threads.countP (Thread.inside ReConnPc.deciding) +
      threads.countP (Thread.inside ReConnPc.settingFlag) ≤ threads.countP Thread.holdsLock :=
  inside_apart (fun pc => by
    cases pc <;> simp [ReConnPc.deciding, ReConnPc.settingFlag, ReConnPc.holdsLock]) threads

theorem active_of_early (thread : Thread) (early : thread.working WorkPc.early = true) :
    thread.working WorkPc.active = true := by
  cases thread with
  | reconnect pc => cases pc <;> simp_all [Thread.working, WorkPc.early, WorkPc.active]
  | _ => cases early

/-- The lock is held by at most one thread, at most one reconnect thread is active,
and the flag is set exactly while it is, up to the moment between the creation of
the thread and the store of the flag. The points inside `ReConn` leave no room for
a second one, and a reconnect thread never gets there. -/
structure Exclusive (system : System) : Prop where
  mutex : system.threads.countP Thread.holdsLock = system.members.lockReConn.toNat
  single : system.threads.countP (Thread.working WorkPc.active) ≤ 1
  idle : system.members.bReConn.toNat ≤ system.threads.countP (Thread.working WorkPc.active)
  flag : system.threads.countP (Thread.working WorkPc.active) ≤ system.members.bReConn.toNat +
    system.threads.countP (Thread.inside ReConnPc.settingFlag)
  deciding : system.threads.countP (Thread.inside ReConnPc.deciding) +
    system.threads.countP (Thread.working WorkPc.active) ≤ 1
  fresh : system.threads.countP (Thread.inside ReConnPc.settingFlag) ≤
    system.threads.countP (Thread.working WorkPc.early)
  outside : system.threads.countP (Thread.working WorkPc.selfCall) = 0

theorem Exclusive.constructed : Exclusive constructed := by
  constructor <;> simp [Reconnect.constructed]

theorem Exclusive.append {system : System} (exclusive : Exclusive system) {thread : Thread}
    (unlocked : thread.holdsLock = false) (visits : ∀ point, thread.working point = false)
    (outside : thread.inside ReConnPc.deciding = false ∧
      thread.inside ReConnPc.settingFlag = false) :
    Exclusive { system with threads := system.threads ++ [thread] } := by
  have same {point : Thread → Bool} (off : point thread = false) :
      (system.threads ++ [thread]).countP point = system.threads.countP point := by
    simp [off]
  have workers (point : WorkPc → Bool) := same (visits point)
  have ⟨mutex, single, idle, flag, deciding, fresh, selfCalls⟩ := exclusive
  constructor
  all_goals
    simp only [same unlocked, same outside.1, same outside.2, workers]
    assumption

theorem Exclusive.locked {system : System} (exclusive : Exclusive system) {index : Nat}
    {thread : Thread} (found : system.threads[index]? = some thread)
    (holds : thread.holdsLock = true) : system.members.lockReConn = true := by
  have mutex := exclusive.mutex
  have here := countP_pos_of_found Thread.holdsLock found holds
  cases locked : system.members.lockReConn with
  | true => rfl
  | false =>
      simp only [locked, Bool.toNat_false] at mutex
      omega

section VisitorCounts

variable {threads : List Thread} {index : Nat} {visitor : Visitor} {pc : ReConnPc}
  (found : threads[index]? = some (visitor.thread (some pc))) (next : Option ReConnPc)
  (started : Bool)
include found

theorem countP_visitor_inside (point : ReConnPc → Bool) :
    (threads.set index (visitor.thread next) ++ newThreads started).countP (Thread.inside point) +
      (point pc).toNat = threads.countP (Thread.inside point) + (next.any point).toNat := by
  have moved := countP_moved (Thread.inside point) found (visitor.thread next) started
  simpa [Thread.inside.eq_3, WorkPc.inside] using moved

theorem countP_visitor_holdsLock :
    (threads.set index (visitor.thread next) ++ newThreads started).countP Thread.holdsLock +
      pc.holdsLock.toNat =
    threads.countP Thread.holdsLock + (next.any ReConnPc.holdsLock).toNat := by
  have moved := countP_moved Thread.holdsLock found (visitor.thread next) started
  have unlocked : (Thread.reconnect .setFlag).holdsLock = false := rfl
  simpa [unlocked] using moved

theorem countP_visitor_working (point : WorkPc → Bool) :
    (threads.set index (visitor.thread next) ++ newThreads started).countP (Thread.working point) =
      threads.countP (Thread.working point) + (started && point .setFlag).toNat := by
  have moved := countP_moved (Thread.working point) found (visitor.thread next) started
  simpa [Thread.working.eq_1] using moved

end VisitorCounts

theorem Exclusive.visitor {system : System} (exclusive : Exclusive system) {index : Nat}
    {outcome : Bool} {visitor : Visitor} {pc : ReConnPc} {next : Step (Option ReConnPc)}
    (found : system.threads[index]? = some (visitor.thread (some pc)))
    (moved : reConn system outcome pc = some next) :
    Exclusive { members := next.members
                threads := system.threads.set index (visitor.thread next.pc) ++
                  newThreads next.started } := by
  have ⟨mutex, single, idle, flag, deciding, fresh, selfCalls⟩ := exclusive
  have held : pc.holdsLock = true → system.members.lockReConn = true := fun holds =>
    exclusive.locked found (by simpa using holds)
  have lockChange := reConn_lock moved held
  obtain ⟨settingIff, startedFrom, decidingApart, decidingFrom⟩ := reConn_starts moved
  have flagChange := reConn_flag moved
  have holders := countP_visitor_holdsLock found next.pc next.started
  have deciders := countP_visitor_inside found next.pc next.started ReConnPc.deciding
  have setters := countP_visitor_inside found next.pc next.started ReConnPc.settingFlag
  have actives := countP_visitor_working found next.pc next.started WorkPc.active
  have earlies := countP_visitor_working found next.pc next.started WorkPc.early
  have selves := countP_visitor_working found next.pc next.started WorkPc.selfCall
  simp only [WorkPc.active, WorkPc.early, WorkPc.selfCall, Bool.and_false, Bool.and_true,
    Bool.toNat_false, Nat.add_zero] at actives earlies selves
  have decides : pc.deciding.toNat ≤ system.threads.countP (Thread.inside ReConnPc.deciding) := by
    simpa using toNat_le_countP (Thread.inside ReConnPc.deciding) found
  have sets : pc.settingFlag.toNat ≤ system.threads.countP (Thread.inside ReConnPc.settingFlag) := by
    simpa using toNat_le_countP (Thread.inside ReConnPc.settingFlag) found
  have apart := holders_apart (system.threads.set index (visitor.thread next.pc) ++
    newThreads next.started)
  have starting : system.threads.countP (Thread.working WorkPc.early) ≤
      system.threads.countP (Thread.working WorkPc.active) :=
    List.countP_mono_left fun thread _ => active_of_early thread
  have lockBound := Bool.toNat_le next.members.lockReConn
  have flagBound := Bool.toNat_le next.members.bReConn
  refine ⟨?_, ?_, ?_, ?_, ?_, ?_, ?_⟩ <;> dsimp only
  · omega
  · omega
  · omega
  · omega
  · omega
  · omega
  · omega

theorem WorkPc.inside_of_outside {pc : WorkPc} (outside : pc.selfCall = false)
    (point : ReConnPc → Bool) : pc.inside point = false := by
  cases pc <;> simp_all [WorkPc.selfCall, WorkPc.inside]

theorem Exclusive.notSelfCall {system : System} (exclusive : Exclusive system) {index : Nat}
    {pc : WorkPc} (found : system.threads[index]? = some (.reconnect pc)) : pc.selfCall = false :=
  countP_eq_zero_iff_none.mp exclusive.outside _ (List.mem_of_getElem? found)

theorem Exclusive.notSelfCall_next {system : System} (exclusive : Exclusive system) {index : Nat}
    {outcome : Bool} {pc : WorkPc} {next : Step WorkPc}
    (found : system.threads[index]? = some (.reconnect pc))
    (moved : doReconnWork system outcome pc = some next) : next.pc.selfCall = false := by
  have ⟨_, single, _, flag, _, fresh, _⟩ := exclusive
  have roundChange := doReconnWork_round moved (exclusive.notSelfCall found)
  have room := countP_add_le_of_found active_of_early found
  simp only [Thread.working] at room
  by_contra calls
  simp only [Bool.not_eq_false] at calls
  simp only [calls, Bool.toNat_true] at roundChange
  omega

theorem Exclusive.worker {system : System} (exclusive : Exclusive system) {index : Nat}
    {outcome : Bool} {pc : WorkPc} {next : Step WorkPc}
    (found : system.threads[index]? = some (.reconnect pc))
    (moved : doReconnWork system outcome pc = some next) :
    Exclusive { members := next.members
                threads := system.threads.set index (.reconnect next.pc) ++
                  newThreads next.started } := by
  have ⟨mutex, single, idle, flag, deciding, fresh, selfCalls⟩ := exclusive
  have outside := exclusive.notSelfCall found
  have outsideNext := exclusive.notSelfCall_next found moved
  have flagChange := doReconnWork_flag moved outside
  have roundChange := doReconnWork_round moved outside
  have started := (doReconnWork_frame moved outside).1
  have apart := holders_apart system.threads
  have lockedAt {at' : WorkPc} (away : at'.selfCall = false) :
      (Thread.reconnect at').holdsLock = at'.locked := by
    simp [Thread.holdsLock, Thread.inside, Thread.working, WorkPc.inside_of_outside away]
  have held : pc.locked = true → system.members.lockReConn = true := fun locked =>
    exclusive.locked found (by rw [lockedAt outside, locked])
  have lockChange := doReconnWork_lock moved outside held
  have holders := countP_moved Thread.holdsLock found (.reconnect next.pc) next.started
  have deciders := countP_moved (Thread.inside ReConnPc.deciding) found (.reconnect next.pc)
    next.started
  have setters := countP_moved (Thread.inside ReConnPc.settingFlag) found (.reconnect next.pc)
    next.started
  have actives := countP_moved (Thread.working WorkPc.active) found (.reconnect next.pc) next.started
  have earlies := countP_moved (Thread.working WorkPc.early) found (.reconnect next.pc) next.started
  have selves := countP_moved (Thread.working WorkPc.selfCall) found (.reconnect next.pc)
    next.started
  have here := toNat_le_countP (Thread.working WorkPc.active) found
  have flagBound := Bool.toNat_le next.members.bReConn
  simp only [started, Bool.false_and, Bool.toNat_false, Nat.add_zero, lockedAt outside,
    lockedAt outsideNext, Thread.inside, Thread.working, WorkPc.inside_of_outside outside,
    WorkPc.inside_of_outside outsideNext, outside, outsideNext] at *
  refine ⟨?_, ?_, ?_, ?_, ?_, ?_, ?_⟩ <;> dsimp only
  · omega
  · omega
  · omega
  · omega
  · omega
  · omega
  · omega

theorem Exclusive.caller {system : System} (exclusive : Exclusive system) {index : Nat}
    {outcome : Bool} {pc : ConnPc} {next : Step (ConnPc ⊕ ConnResult)}
    (found : system.threads[index]? = some (.caller (.conn pc)))
    (moved : conn system.members outcome pc = some next) :
    Exclusive { members := next.members
                threads := system.threads.set index (.caller (.inConn next.pc)) ++
                  newThreads next.started } := by
  obtain ⟨started, sameLock, sameFlag, _, _, _, _⟩ := conn_frame moved
  have away (point : ReConnPc → Bool) (notLock : point .lock = false) :
      (CallerPc.inConn next.pc).inside point = false := by
    rcases next.pc with later | _ | _ | _ <;> first | rfl | exact notLock
  have same {point : Thread → Bool} (before : point (.caller (.conn pc)) = false)
      (after : point (.caller (.inConn next.pc)) = false) :
      (system.threads.set index (.caller (.inConn next.pc)) ++ newThreads next.started).countP point =
        system.threads.countP point := by
    have balance := countP_moved point found (.caller (.inConn next.pc)) next.started
    rw [started] at balance ⊢
    simpa [before, after] using balance
  have holders := @same Thread.holdsLock rfl
    (by simp [Thread.holdsLock, Thread.inside, Thread.working, away ReConnPc.holdsLock rfl])
  have deciders := @same (Thread.inside ReConnPc.deciding) rfl (away ReConnPc.deciding rfl)
  have setters := @same (Thread.inside ReConnPc.settingFlag) rfl (away ReConnPc.settingFlag rfl)
  have workers (point : WorkPc → Bool) := @same (Thread.working point) rfl rfl
  have ⟨mutex, single, idle, flag, deciding, fresh, selfCalls⟩ := exclusive
  constructor
  all_goals
    simp only [holders, deciders, setters, workers, sameLock, sameFlag]
    assumption

theorem Exclusive.move {system next : System} {action : Action} (exclusive : Exclusive system)
    (moved : Move system action next) : Exclusive next := by
  cases moved with
  | call => exact exclusive.append rfl (fun _ => rfl) ⟨rfl, rfl⟩
  | report _ _ => exact exclusive.append rfl (fun _ => rfl) ⟨rfl, rfl⟩
  | caller found moved => exact exclusive.caller found moved
  | visitor found moved => exact exclusive.visitor found moved
  | worker found moved => exact exclusive.worker found moved

theorem exclusive_reachable {allowed : System → Action → Prop} {system : System}
    (reached : Reachable step (· = constructed) allowed system) : Exclusive system :=
  reached.invariant Exclusive (by rintro _ rfl; exact .constructed)
    (fun _ _ _ _ exclusive _ taken => exclusive.move (step_move taken))

/-! Threads inside `ReConn` past its `lock` statement: they hold the lock, so the one that
moves is the only one, and the other functions do not touch what it works on. -/

theorem ReConnPc.holdsLock_of_past {point : ReConnPc → Bool} (past : point .lock = false)
    (pc : ReConnPc) (here : point pc = true) : pc.holdsLock = true := by
  cases pc with
  | lock => rw [past] at here; cases here
  | _ => rfl

theorem holdsLock_of_inside {point : ReConnPc → Bool} (past : point .lock = false)
    (thread : Thread) (here : thread.inside point = true) : thread.holdsLock = true := by
  have held := Thread.inside_mono (ReConnPc.holdsLock_of_past past) thread here
  simp [Thread.holdsLock, held]

theorem Exclusive.visitor_alone {system : System} (exclusive : Exclusive system) {index : Nat}
    {outcome : Bool} {visitor : Visitor} {pc : ReConnPc} {next : Step (Option ReConnPc)}
    (found : system.threads[index]? = some (visitor.thread (some pc)))
    (moved : reConn system outcome pc = some next) {point : ReConnPc → Bool}
    (past : point .lock = false) :
    system.threads.countP (Thread.inside point) = (point pc).toNat ∧
      (system.threads.set index (visitor.thread next.pc) ++ newThreads next.started).countP
        (Thread.inside point) = (next.pc.any point).toNat := by
  have counted := countP_visitor_inside found next.pc next.started point
  have others := countP_add_le_of_found (holdsLock_of_inside past) found
  have mutex := exclusive.mutex
  have bound := Bool.toNat_le system.members.lockReConn
  have here := toNat_le_countP (Thread.inside point) found
  simp only [Visitor.inside_thread, Visitor.holdsLock_thread, Option.any_some] at others here
  cases pc with
  | lock =>
      have free : system.members.lockReConn = false := by
        cases locked : system.members.lockReConn with
        | false => rfl
        | true => simp [reConn, lockReConn, locked] at moved
      simp only [free, ReConnPc.holdsLock, Bool.toNat_false] at mutex others
      constructor <;> omega
  | _ =>
      simp only [ReConnPc.holdsLock, Bool.toNat_true] at others
      constructor <;> omega

theorem Exclusive.visitor_counts {system : System} (exclusive : Exclusive system) {index : Nat}
    {outcome : Bool} {visitor : Visitor} {pc : ReConnPc} {next : Step (Option ReConnPc)}
    (found : system.threads[index]? = some (visitor.thread (some pc)))
    (moved : reConn system outcome pc = some next) {point : ReConnPc → Bool}
    (past : point .lock = false) :
    (0 < system.threads.countP (Thread.inside point) ↔ point pc = true) ∧
      (0 < (system.threads.set index (visitor.thread next.pc) ++ newThreads next.started).countP
        (Thread.inside point) ↔ next.pc.any point = true) := by
  obtain ⟨before, after⟩ := exclusive.visitor_alone found moved past
  rw [before, after]
  exact ⟨toNat_pos_iff, toNat_pos_iff⟩

structure LeavesReConn (system next : System) : Prop where
  handle : next.members.thrdReConn = system.members.thrdReConn
  handles : next.members.handles = system.members.handles
  sem : next.members.sem = system.members.sem
  inside : ∀ point : ReConnPc → Bool, point .lock = false →
    next.threads.countP (Thread.inside point) = system.threads.countP (Thread.inside point)

theorem Exclusive.leavesReConn_or_visitor {system next : System} {action : Action}
    (exclusive : Exclusive system) (moved : Move system action next) :
    LeavesReConn system next ∨
      ∃ (index : Nat) (outcome : Bool) (visitor : Visitor) (pc : ReConnPc)
        (done : Step (Option ReConnPc)),
        action = .thread index outcome ∧
        system.threads[index]? = some (visitor.thread (some pc)) ∧
        reConn system outcome pc = some done ∧
        next = { members := done.members
                 threads := system.threads.set index (visitor.thread done.pc) ++
                   newThreads done.started } := by
  cases moved with
  | call => exact .inl ⟨rfl, rfl, rfl, fun point _ => by
      simp [List.countP_append, Thread.inside, CallerPc.inside]⟩
  | report _ _ => exact .inl ⟨rfl, rfl, rfl, fun point past => by
      simp [List.countP_append, Thread.inside, CallbackPc.inside, past]⟩
  | @caller index _ pc next found connected =>
      obtain ⟨started, _, _, sameSem, sameHandle, _, _⟩ := conn_frame connected
      refine .inl ⟨sameHandle, conn_handles connected, sameSem, fun point past => ?_⟩
      have counted := countP_moved (Thread.inside point) found (.caller (.inConn next.pc))
        next.started
      have before : (Thread.caller (.conn pc)).inside point = false := rfl
      have after : (Thread.caller (.inConn next.pc)).inside point = false := by
        rcases next.pc with later | _ | _ | _ <;> first | rfl | exact past
      simpa [before, after, started] using counted
  | @visitor index outcome visitor pc done found entered =>
      exact .inr ⟨index, outcome, visitor, pc, done, rfl, found, entered, rfl⟩
  | @worker index _ pc next found worked =>
      have outside := exclusive.notSelfCall found
      have outsideNext := exclusive.notSelfCall_next found worked
      obtain ⟨started, sameHandle, sameSem⟩ := doReconnWork_frame worked outside
      refine .inl ⟨sameHandle, doReconnWork_handles worked outside, sameSem, fun point _ => ?_⟩
      have counted := countP_moved (Thread.inside point) found (.reconnect next.pc) next.started
      simpa [Thread.inside, WorkPc.inside_of_outside outside,
        WorkPc.inside_of_outside outsideNext, started] using counted

end DcCluster.Reconnect
