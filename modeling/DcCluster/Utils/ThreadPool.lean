import DcCluster.Lib.ThreadTable
import DcCluster.Utils.ThreadPoolCore

/-!
The counters of the pool. Every thread moves alone, and its step changes the
mutex, `thr_alive` and `thr_idle` by exactly what its program counter
contributes; summing the contributions gives invariants that hold for any number
of threads and any interleaving.
-/

namespace DcCluster.ThreadPool

open DcCluster.Lib

variable {Data : Type}

/-- What one action can do: a call of `thrmgr_dispatch` starts, or exactly one
thread takes the next step of its own code. -/
inductive Move (system : System Data) : Action Data → System Data → Prop
  | call (userData : Data) : Move system (.callDispatch userData)
      { system with dispatchers := system.dispatchers ++ [⟨userData, .lock⟩] }
  | dispatcher {index : Nat} {outcome : Bool} {call : Dispatcher Data} {pool : Pool Data}
      {pc : DispatchPc} {started : Bool} :
      system.dispatchers[index]? = some call →
      thrmgrDispatch system.pool outcome call.userData call.pc = some (pool, pc, started) →
      Move system (.dispatcher index outcome)
        { system with
          pool := pool
          dispatchers := system.dispatchers.set index { call with pc := pc }
          workers := if started then system.workers ++ [.loopTest] else system.workers }
  | worker {index : Nat} {outcome : Bool} {old new : WorkerPc Data} {pool : Pool Data} :
      system.workers[index]? = some old →
      thrmgrWorker system.pool outcome old = some (pool, new) →
      Move system (.worker index outcome)
        { system with pool := pool, workers := system.workers.set index new }
  | destroyer {pool : Pool Data} {new : DestroyPc} :
      thrmgrDestroy system.pool system.destroyer = some (pool, new) →
      Move system .destroyer { system with pool := pool, destroyer := new }

theorem step_move {system next : System Data} {action : Action Data}
    (taken : step system action = some next) : Move system action next := by
  cases action with
  | callDispatch userData =>
      simp only [step, Option.some.injEq] at taken
      subst next
      exact .call userData
  | dispatcher index outcome =>
      simp only [step, stepDispatcher] at taken
      split at taken
      · simp at taken
      · rename_i call found
        simp only [Option.map_eq_some_iff] at taken
        obtain ⟨⟨pool, pc, started⟩, moved, rfl⟩ := taken
        exact .dispatcher found moved
  | worker index outcome =>
      simp only [step, stepWorker] at taken
      split at taken
      · simp at taken
      · rename_i old found
        simp only [Option.map_eq_some_iff] at taken
        obtain ⟨⟨pool, new⟩, moved, rfl⟩ := taken
        exact .worker found moved
  | destroyer =>
      simp only [step, stepDestroyer, Option.map_eq_some_iff] at taken
      obtain ⟨⟨pool, new⟩, moved, rfl⟩ := taken
      exact .destroyer moved

structure Fresh (system : System Data) : Prop where
  state : system.pool.state = .valid
  positive : 0 < system.pool.thrMax
  thrAlive : system.pool.thrAlive = 0
  thrIdle : system.pool.thrIdle = 0
  poolSem : system.pool.poolSem = 0
  poolSigSem : system.pool.poolSigSem = 0
  poolMutex : system.pool.poolMutex = false
  queue : system.pool.queue = []
  added : system.pool.added = []
  popped : system.pool.popped = []
  handled : system.pool.handled = []
  poolSemPosts : system.pool.poolSemPosts = 0
  dispatchers : system.dispatchers = []
  workers : system.workers = []
  destroyer : system.destroyer = .idle

theorem Created.fresh {system : System Data} (created : Created system) : Fresh system := by
  obtain ⟨maxThreads, idleTimeout, stackSize, pool, new, rfl⟩ := created
  simp only [thrmgrNew] at new
  split at new
  · simp at new
  · rename_i accepted
    simp only [Bool.true_eq_false, ↓reduceIte, Option.some.injEq] at new
    subst pool
    constructor <;> first | rfl | (dsimp only; omega)

/-! Program points of the three kinds of threads. -/

@[grind] def WorkerPc.holdsMutex : WorkerPc Data → Bool
  | .pop | .unlockPop _ | .decAlive | .lastTest | .unlockExit _ => true
  | _ => false

@[grind] def WorkerPc.counted : WorkerPc Data → Bool
  | .lastTest | .unlockExit _ | .postLast | .finished => false
  | _ => true

@[grind] def WorkerPc.idling : WorkerPc Data → Bool
  | .semWait | .decIdle _ => true
  | _ => false

@[grind] def DispatchPc.holdsMutex : DispatchPc → Bool
  | .stateTest | .add | .idleTest | .create | .incAlive | .unlock | .refuse _ => true
  | _ => false

@[grind] def DispatchPc.spawned : DispatchPc → Bool
  | .incAlive => true
  | _ => false

@[grind] def DispatchPc.reserves : DispatchPc → Bool
  | .create | .incAlive => true
  | _ => false

@[grind] def DispatchPc.inProgress : DispatchPc → Bool
  | .returned _ _ => false
  | _ => true

@[grind] def DestroyPc.holdsMutex : DestroyPc → Bool
  | .readAlive | .signal _ | .unlock _ => true
  | _ => false

def callsAt (calls : List (Dispatcher Data)) (point : DispatchPc → Bool) : Nat :=
  calls.countP fun call => point call.pc

theorem callsAt_set {calls : List (Dispatcher Data)} {index : Nat} {call : Dispatcher Data}
    (found : calls[index]? = some call) (pc : DispatchPc) (point : DispatchPc → Bool) :
    callsAt (calls.set index { call with pc := pc }) point + (point call.pc).toNat =
      callsAt calls point + (point pc).toNat :=
  countP_set_balance (fun call : Dispatcher Data => point call.pc) found { call with pc := pc }

theorem callsAt_append (calls : List (Dispatcher Data)) (call : Dispatcher Data)
    (point : DispatchPc → Bool) :
    callsAt (calls ++ [call]) point = callsAt calls point + (point call.pc).toNat := by
  cases here : point call.pc <;> simp [callsAt, here]

theorem callsAt_pos {calls : List (Dispatcher Data)} {index : Nat} {call : Dispatcher Data}
    {point : DispatchPc → Bool} (found : calls[index]? = some call)
    (here : point call.pc = true) : 0 < callsAt calls point :=
  countP_pos_of_found (fun call : Dispatcher Data => point call.pc) found here

theorem callsAt_mono {point wider : DispatchPc → Bool}
    (implied : ∀ pc, point pc = true → wider pc = true) (calls : List (Dispatcher Data)) :
    callsAt calls point ≤ callsAt calls wider :=
  List.countP_mono_left fun call _ => implied call.pc

theorem callsAt_le_add {point left right : DispatchPc → Bool}
    (covered : ∀ pc, point pc = true → left pc = true ∨ right pc = true)
    (calls : List (Dispatcher Data)) :
    callsAt calls point ≤ callsAt calls left + callsAt calls right :=
  countP_le_add (fun call : Dispatcher Data => covered call.pc) calls

theorem workersAt_started (workers : List (WorkerPc Data)) (started : Bool)
    (point : WorkerPc Data → Bool) :
    (if started then workers ++ [.loopTest] else workers).countP point =
      workers.countP point + (started && point .loopTest).toNat := by
  cases started <;> cases here : point .loopTest <;> simp [here]

theorem thrmgrWorker_counters {pool next : Pool Data} {outcome : Bool} {old new : WorkerPc Data}
    (moved : thrmgrWorker pool outcome old = some (next, new))
    (held : old.holdsMutex = true → pool.poolMutex = true) :
    next.poolMutex.toNat + old.holdsMutex.toNat = pool.poolMutex.toNat + new.holdsMutex.toNat ∧
    next.thrAlive + old.counted.toNat = pool.thrAlive + new.counted.toNat ∧
    next.thrIdle + old.idling.toNat = pool.thrIdle + new.idling.toNat ∧
    next.thrAlive ≤ pool.thrAlive ∧ next.thrMax = pool.thrMax ∧
    (next.thrAlive = pool.thrAlive ∨ new.holdsMutex = true) := by
  cases old with
  | unlockPop job => cases job <;> grind -ring -linarith
  | _ => grind -ring -linarith

theorem thrmgrDispatch_counters {pool next : Pool Data} {outcome started : Bool}
    {userData : Data} {old new : DispatchPc}
    (moved : thrmgrDispatch pool outcome userData old = some (next, new, started))
    (held : old.holdsMutex = true → pool.poolMutex = true) :
    next.poolMutex.toNat + old.holdsMutex.toNat = pool.poolMutex.toNat + new.holdsMutex.toNat ∧
    next.thrAlive + new.spawned.toNat = pool.thrAlive + old.spawned.toNat + started.toNat ∧
    pool.thrAlive ≤ next.thrAlive ∧ next.thrIdle = pool.thrIdle ∧ next.thrMax = pool.thrMax := by
  cases old <;> grind -ring -linarith

theorem thrmgrDestroy_counters {pool next : Pool Data} {old new : DestroyPc}
    (moved : thrmgrDestroy pool old = some (next, new))
    (held : old.holdsMutex = true → pool.poolMutex = true) :
    next.poolMutex.toNat + old.holdsMutex.toNat = pool.poolMutex.toNat + new.holdsMutex.toNat ∧
    next.thrAlive = pool.thrAlive ∧ next.thrIdle = pool.thrIdle ∧ next.thrMax = pool.thrMax := by
  cases old with
  | signal existed => cases existed <;> grind -ring -linarith
  | _ => grind -ring -linarith

theorem thrmgrDispatch_reserves {pool next : Pool Data} {outcome started : Bool}
    {userData : Data} {old new : DispatchPc}
    (moved : thrmgrDispatch pool outcome userData old = some (next, new, started)) :
    next.thrAlive + new.reserves.toNat ≤ pool.thrAlive + old.reserves.toNat ∨
      new.reserves = true ∧ next.thrAlive < pool.thrMax := by
  cases old <;> grind -ring -linarith

theorem DispatchPc.holdsMutex_of_reserves (pc : DispatchPc) (reserving : pc.reserves = true) :
    pc.holdsMutex = true := by
  cases pc <;> simp_all [DispatchPc.reserves, DispatchPc.holdsMutex]

theorem DispatchPc.holdsMutex_of_spawned (pc : DispatchPc) (spawned : pc.spawned = true) :
    pc.holdsMutex = true := by
  cases pc <;> simp_all [DispatchPc.spawned, DispatchPc.holdsMutex]

/-- The counters are exact at every moment: the mutex is held by at most one
thread, `thr_alive` and `thr_idle` count the workers at the program points they
stand for, and the pool never outgrows `thr_max`. -/
structure Counters (system : System Data) : Prop where
  mutex : callsAt system.dispatchers DispatchPc.holdsMutex + system.workers.countP WorkerPc.holdsMutex +
    system.destroyer.holdsMutex.toNat = system.pool.poolMutex.toNat
  alive : system.pool.thrAlive + callsAt system.dispatchers DispatchPc.spawned =
    system.workers.countP WorkerPc.counted
  idle : system.pool.thrIdle = system.workers.countP WorkerPc.idling
  nonneg : 0 ≤ system.pool.thrAlive
  room : system.pool.thrAlive + callsAt system.dispatchers DispatchPc.reserves ≤ system.pool.thrMax
  positive : 0 < system.pool.thrMax

theorem Counters.created {system : System Data} (created : Created system) : Counters system := by
  have fresh := created.fresh
  refine ⟨?_, ?_, ?_, ?_, ?_, fresh.positive⟩
  · simp [fresh.poolMutex, fresh.dispatchers, fresh.workers, fresh.destroyer, callsAt,
      DestroyPc.holdsMutex]
  · simp [fresh.thrAlive, fresh.dispatchers, fresh.workers, callsAt]
  · simp [fresh.thrIdle, fresh.workers]
  · simp [fresh.thrAlive]
  · simpa [fresh.thrAlive, fresh.dispatchers, callsAt] using Int.le_of_lt fresh.positive

theorem Counters.mutexHeld {system : System Data} (counters : Counters system)
    (holders : 0 < callsAt system.dispatchers DispatchPc.holdsMutex +
      system.workers.countP WorkerPc.holdsMutex + system.destroyer.holdsMutex.toNat) :
    system.pool.poolMutex = true := by
  have mutex := counters.mutex
  cases locked : system.pool.poolMutex with
  | true => rfl
  | false =>
      simp only [locked, Bool.toNat_false] at mutex
      omega

theorem Counters.dispatcherMutex {system : System Data} {index : Nat} {call : Dispatcher Data}
    (counters : Counters system) (found : system.dispatchers[index]? = some call)
    (holds : call.pc.holdsMutex = true) : system.pool.poolMutex = true := by
  apply counters.mutexHeld
  have here := callsAt_pos found holds
  omega

theorem Counters.workerMutex {system : System Data} {index : Nat} {pc : WorkerPc Data}
    (counters : Counters system) (found : system.workers[index]? = some pc)
    (holds : pc.holdsMutex = true) : system.pool.poolMutex = true := by
  apply counters.mutexHeld
  have here := countP_pos_of_found WorkerPc.holdsMutex found holds
  omega

theorem Counters.destroyerMutex {system : System Data} (counters : Counters system)
    (holds : system.destroyer.holdsMutex = true) : system.pool.poolMutex = true := by
  apply counters.mutexHeld
  simp only [holds, Bool.toNat_true]
  omega

theorem Counters.move {system next : System Data} {action : Action Data}
    (counters : Counters system) (moved : Move system action next) : Counters next := by
  have ⟨mutex, alive, idle, nonneg, room, positive⟩ := counters
  cases moved with
  | call userData =>
      refine ⟨?_, ?_, idle, nonneg, ?_, positive⟩
      · simpa [callsAt_append, DispatchPc.holdsMutex] using mutex
      · simpa [callsAt_append, DispatchPc.spawned] using alive
      · simpa [callsAt_append, DispatchPc.reserves] using room
  | @dispatcher index outcome call pool pc started found moved =>
      have change := thrmgrDispatch_counters moved (counters.dispatcherMutex found)
      have holders := callsAt_set found pc DispatchPc.holdsMutex
      have spawning := callsAt_set found pc DispatchPc.spawned
      have reserving := callsAt_set found pc DispatchPc.reserves
      refine ⟨?_, ?_, ?_, ?_, ?_, ?_⟩
      · simp only [workersAt_started, WorkerPc.holdsMutex, Bool.and_false, Bool.toNat_false]
        omega
      · simp only [workersAt_started, WorkerPc.counted, Bool.and_true]
        omega
      · simp only [workersAt_started, WorkerPc.idling, Bool.and_false, Bool.toNat_false]
        omega
      · dsimp only
        omega
      · have exclusive : pool.poolMutex.toNat ≤ 1 := Bool.toNat_le _
        have reservers := callsAt_mono DispatchPc.holdsMutex_of_reserves
          (system.dispatchers.set index { call with pc := pc })
        rcases thrmgrDispatch_reserves moved with lower | ⟨reserves, fits⟩
        · dsimp only
          omega
        · -- the caller owns the mutex, so no other call has a reservation
          dsimp only
          omega
      · exact change.2.2.2.2 ▸ positive
  | @worker index outcome old new pool found moved =>
      have change := thrmgrWorker_counters moved (counters.workerMutex found)
      have holders := countP_set_balance WorkerPc.holdsMutex found new
      have counting := countP_set_balance WorkerPc.counted found new
      have idling := countP_set_balance WorkerPc.idling found new
      refine ⟨?_, ?_, ?_, ?_, ?_, ?_⟩ <;> dsimp only
      · omega
      · omega
      · omega
      · rcases change.2.2.2.2.2 with same | holds
        · omega
        · -- the last decrement is under the mutex, so no started worker is uncounted
          have exclusive : pool.poolMutex.toNat ≤ 1 := Bool.toNat_le _
          have spawners := callsAt_mono DispatchPc.holdsMutex_of_spawned system.dispatchers
          have holder := countP_pos_of_found WorkerPc.holdsMutex
            (List.getElem?_set_self (List.getElem?_eq_some_iff.mp found).1) holds
          omega
      · omega
      · omega
  | destroyer moved =>
      have change := thrmgrDestroy_counters moved counters.destroyerMutex
      refine ⟨?_, ?_, ?_, ?_, ?_, ?_⟩ <;> dsimp only <;> omega

theorem counters_reachable {allowed : System Data → Action Data → Prop} {system : System Data}
    (reached : Reachable step Created allowed system) : Counters system :=
  reached.invariant Counters (fun _ created => .created created)
    (fun _ _ _ _ counters _ taken => counters.move (step_move taken))

@[grind] def DestroyPc.beforeExit : DestroyPc → Bool
  | .idle | .setExit => true
  | _ => false

def Staged (system : System Data) : Prop :=
  system.pool.state = .valid ↔ system.destroyer.beforeExit = true

theorem thrmgrWorker_state {pool next : Pool Data} {outcome : Bool} {old new : WorkerPc Data}
    (moved : thrmgrWorker pool outcome old = some (next, new)) : next.state = pool.state := by
  cases old with
  | unlockPop job => cases job <;> grind -ring -linarith
  | _ => grind -ring -linarith

theorem thrmgrDispatch_state {pool next : Pool Data} {outcome started : Bool} {userData : Data}
    {old new : DispatchPc}
    (moved : thrmgrDispatch pool outcome userData old = some (next, new, started)) :
    next.state = pool.state := by
  cases old <;> grind -ring -linarith

theorem Staged.move {system next : System Data} {action : Action Data} (staged : Staged system)
    (moved : Move system action next) : Staged next := by
  unfold Staged at staged ⊢
  cases moved with
  | call userData => exact staged
  | dispatcher found moved => simpa [thrmgrDispatch_state moved] using staged
  | worker found moved => simpa [thrmgrWorker_state moved] using staged
  | destroyer moved =>
      cases stage : system.destroyer with
      | signal existed => cases existed <;> grind -ring -linarith
      | _ => grind -ring -linarith

theorem staged_reachable {allowed : System Data → Action Data → Prop} {system : System Data}
    (reached : Reachable step Created allowed system) : Staged system := by
  refine reached.invariant Staged (fun system created => ?_)
    (fun _ _ _ _ staged _ taken => staged.move (step_move taken))
  simp [Staged, created.fresh.state, created.fresh.destroyer, DestroyPc.beforeExit]

theorem WorkerPc.counted_of_idling (pc : WorkerPc Data) (idling : pc.idling = true) :
    pc.counted = true := by
  cases pc <;> simp_all [WorkerPc.idling, WorkerPc.counted]

/-- Unless a call has started a thread that it has not counted yet, `thr_alive` is
the number of workers before their last decrement, `thr_idle` the number of those
between their increment and decrement of it, and both stay within `thr_max`. -/
theorem counters_exact_and_bounded {system : System Data}
    (reached : Reachable step Created anyAction system)
    (outside : ∀ call ∈ system.dispatchers, call.pc ≠ .incAlive) :
    system.pool.thrAlive = system.workers.countP WorkerPc.counted ∧
      system.pool.thrIdle = system.workers.countP WorkerPc.idling ∧
      0 ≤ system.pool.thrIdle ∧ system.pool.thrIdle ≤ system.pool.thrAlive ∧
      system.pool.thrAlive ≤ system.pool.thrMax := by
  have ⟨_, alive, idle, _, room, _⟩ := counters_reachable reached
  have spawned : callsAt system.dispatchers DispatchPc.spawned = 0 := by
    refine countP_eq_zero_iff_none.mpr fun call member => ?_
    have elsewhere := outside call member
    cases pc : call.pc <;> simp_all [DispatchPc.spawned]
  have idleCounted := List.countP_mono_left (l := system.workers)
    (fun pc _ => WorkerPc.counted_of_idling pc)
  refine ⟨?_, idle, ?_, ?_, ?_⟩ <;> omega

def startedPool (maxThreads idleTimeout : Int) : System Nat :=
  { pool := {
      thrStacksize := 1024 * 1024, state := .valid, thrMax := maxThreads, thrAlive := 0,
      thrIdle := 0, idleTimeout := idleTimeout, poolSem := 0, poolSigSem := 0, poolMutex := false,
      queue := [], added := [], popped := [], handled := [], poolSemPosts := 0 }
    dispatchers := [], workers := [], destroyer := .idle }

theorem startedPool_created {maxThreads idleTimeout : Int} (positive : 0 < maxThreads) :
    Created (startedPool maxThreads idleTimeout) := by
  refine ⟨maxThreads, idleTimeout, 0, (startedPool maxThreads idleTimeout).pool, ?_, rfl⟩
  simp [thrmgrNew, startedPool, Int.not_le.mpr positive]

/-- The first call has returned and its worker waits for a signal. -/
def idleWorker : List (Action Nat) :=
  .callDispatch 7 :: List.replicate 8 (.dispatcher 0 true) ++ List.replicate 2 (.worker 0 true)

theorem idleWorker_finishes : (run step (startedPool 300 30000) idleWorker).isSome = true := by
  decide

theorem counters_exact_and_bounded_idleWorker :
    ∃ system, run step (startedPool 300 30000) idleWorker = some system ∧
      system.pool.thrAlive = 1 ∧ system.pool.thrIdle = 1 ∧
      system.pool.thrAlive ≤ system.pool.thrMax := by
  have reached : Reachable step Created anyAction
      ((run step (startedPool 300 30000) idleWorker).get idleWorker_finishes) :=
    .of_run (startedPool_created (by decide)) (permitted_anyAction _ _ _) idleWorker_finishes
  obtain ⟨alive, idle, _, _, bounded⟩ := counters_exact_and_bounded reached (by decide)
  exact ⟨_, (Option.some_get idleWorker_finishes).symm, alive.trans (by decide), idle.trans (by decide),
    bounded⟩

end DcCluster.ThreadPool
