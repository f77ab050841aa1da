import DcCluster.Utils.ThreadPoolSpawn

/-!
When the pool grows. `thrmgr_dispatch` starts no thread while `thr_idle ≠ 0`,
but `thr_idle` still counts a worker whose token is already posted, and one whose
wait has timed out. Jobs then outnumber the workers that come for them, and one
waits behind a running handler although the pool is below `thr_max`.
-/

namespace DcCluster.ThreadPool

open DcCluster.Lib

variable {Data : Type}

@[grind] def WorkerPc.inHandler : WorkerPc Data → Bool
  | .handler _ => true
  | _ => false

/-- The worker will come back to the queue without running a handler first. -/
@[grind] def WorkerPc.available : WorkerPc Data → Bool
  | .loopTest | .incIdle | .semWait | .lockPop | .pop | .unlockPop none => true
  | .decIdle retval | .exitTest retval => retval
  | _ => false

/-- With every live worker inside the handler, a job waits only in a full pool. -/
def GrownWhenNeeded (system : System Data) : Prop :=
  system.pool.state = .valid → 1 ≤ system.pool.thrAlive →
    (∀ call ∈ system.dispatchers, call.pc.inProgress = false) → system.pool.queue ≠ [] →
      (∀ pc ∈ system.workers, pc.counted = true → pc.inHandler = true) →
        system.pool.thrAlive = system.pool.thrMax

/-- No job outnumbers the workers on their way to the queue while the pool could
have one more that stays: a call that starts no thread leaves at most as many jobs
as there are such workers, and a wait that times out while a call has still to
post its token was by a worker to spare. A pool of one thread is exempt. -/
def jobsHaveWorkers (system : System Data) : Action Data → Prop
  | .dispatcher index _ => ∀ call ∈ system.dispatchers[index]?, call.pc = .idleTest →
      ¬(system.pool.thrIdle = 0 ∧ system.pool.thrAlive < system.pool.thrMax) →
        1 < system.pool.thrMax →
          (system.workers.countP WorkerPc.staying : Int) < system.pool.thrMax →
            system.pool.queue.length ≤ system.workers.countP WorkerPc.available
  | .worker index false => system.workers[index]? = some .semWait →
      0 < callsAt system.dispatchers DispatchPc.decided → 1 < system.pool.thrMax →
        system.pool.queue.length < system.workers.countP WorkerPc.available +
          callsAt system.dispatchers DispatchPc.beforeSpawn
  | _ => True

def growsInTime (system : System Data) (action : Action Data) : Prop :=
  creationSucceeds system action ∧ jobsHaveWorkers system action

instance [DecidableEq Data] (system : System Data) :
    ∀ action, Decidable (jobsHaveWorkers system action)
  | .dispatcher index _ =>
      inferInstanceAs (Decidable (∀ call ∈ system.dispatchers[index]?, call.pc = .idleTest → _))
  | .worker index false =>
      inferInstanceAs (Decidable (system.workers[index]? = some .semWait → _))
  | .callDispatch _ | .worker _ true | .destroyer => isTrue trivial

instance [DecidableEq Data] (system : System Data) (action : Action Data) :
    Decidable (growsInTime system action) :=
  inferInstanceAs (Decidable (creationSucceeds system action ∧ jobsHaveWorkers system action))

theorem WorkerPc.available_of_hasToken (pc : WorkerPc Data) (token : pc.hasToken = true) :
    pc.available = true := by
  cases pc <;> simp_all [WorkerPc.hasToken, WorkerPc.available]

theorem WorkerPc.counted_of_staying (pc : WorkerPc Data) (stays : pc.staying = true) :
    pc.counted = true := by
  cases pc <;> simp_all [WorkerPc.staying, WorkerPc.counted]

theorem WorkerPc.not_inHandler_of_available (pc : WorkerPc Data) (available : pc.available = true) :
    pc.counted = true ∧ pc.inHandler = false := by
  cases pc <;> simp_all [WorkerPc.available, WorkerPc.counted, WorkerPc.inHandler]

theorem thrmgrWorker_available {pool next : Pool Data} {outcome : Bool} {old new : WorkerPc Data}
    (moved : thrmgrWorker pool outcome old = some (next, new)) (valid : pool.state = .valid)
    (found : old = .pop → pool.queue ≠ []) (waits : old = .semWait → outcome = true) :
    next.queue.length + old.available.toNat ≤ pool.queue.length + new.available.toNat := by
  cases old with
  | unlockPop job =>
      cases job <;> simp only [thrmgrWorker, Option.some.injEq, Prod.mk.injEq] at moved <;>
        obtain ⟨rfl, rfl⟩ := moved <;> exact Nat.le_refl _
  | _ => grind -ring -linarith

theorem thrmgrWorker_woken {pool next : Pool Data} {outcome : Bool} {new : WorkerPc Data}
    (moved : thrmgrWorker pool outcome .semWait = some (next, new))
    (stays : new.staying = true) : outcome = true := by
  cases outcome with
  | true => rfl
  | false =>
      simp only [thrmgrWorker, waitSignal, Bool.false_eq_true, ↓reduceIte,
        Option.ite_none_right_eq_some, Option.some.injEq, Prod.mk.injEq] at moved
      obtain ⟨_, _, rfl⟩ := moved
      cases stays

theorem thrmgrDispatch_grows {pool next : Pool Data} {outcome started : Bool} {userData : Data}
    {old new : DispatchPc}
    (moved : thrmgrDispatch pool outcome userData old = some (next, new, started))
    (created : old = .create → outcome = true) :
    next.queue.length + old.beforeSpawn.toNat =
        pool.queue.length + new.beforeSpawn.toNat + started.toNat ∨
      old = .idleTest ∧ next = pool ∧ new = .unlock ∧ started = false ∧
        ¬(pool.thrIdle = 0 ∧ pool.thrAlive < pool.thrMax) := by
  cases old <;> grind -ring -linarith

theorem lateRefusal_zero {allowed : System Data → Action Data → Prop} {system : System Data}
    (succeeds : ∀ system action, allowed system action → creationSucceeds system action)
    (reached : Reachable step Created allowed system) :
    callsAt system.dispatchers DispatchPc.lateRefusal = 0 := by
  refine reached.invariant (fun system => callsAt system.dispatchers DispatchPc.lateRefusal = 0)
    (fun system created => by simp [created.fresh.dispatchers, callsAt]) ?_
  intro system action next _ none permitted taken
  cases step_move taken with
  | call userData => simpa [callsAt_append, DispatchPc.lateRefusal] using none
  | @dispatcher index outcome call pool pc started found moved =>
      have unrefused : call.pc.lateRefusal = false := by
        by_contra refusing
        exact absurd none (Nat.ne_of_gt (callsAt_pos found (Bool.not_eq_false _ ▸ refusing)))
      have created : call.pc = .create → outcome = true := succeeds _ _ permitted _ found
      have kept := (thrmgrDispatch_covers moved created unrefused).1
      have shift := callsAt_set found pc DispatchPc.lateRefusal
      simp only [kept, Bool.toNat_false] at shift
      dsimp only
      omega
  | worker found moved => exact none
  | destroyer moved => exact none

/-- The invariant behind `GrownWhenNeeded`: the jobs of the calls that have decided
do not outnumber the available workers. -/
def Manned (system : System Data) : Prop :=
  system.pool.state = .valid → 1 < system.pool.thrMax →
    (system.workers.countP WorkerPc.staying : Int) < system.pool.thrMax →
      system.pool.queue.length ≤ system.workers.countP WorkerPc.available +
        callsAt system.dispatchers DispatchPc.beforeSpawn

theorem Manned.dispatcherMove {system : System Data} {index : Nat} {outcome started : Bool}
    {call : Dispatcher Data} {pc : DispatchPc} {pool : Pool Data} (manned : Manned system)
    (counters : Counters system) (found : system.dispatchers[index]? = some call)
    (moved : thrmgrDispatch system.pool outcome call.userData call.pc = some (pool, pc, started))
    (created : call.pc = .create → outcome = true)
    (enough : call.pc = .idleTest →
      ¬(system.pool.thrIdle = 0 ∧ system.pool.thrAlive < system.pool.thrMax) →
        1 < system.pool.thrMax →
          (system.workers.countP WorkerPc.staying : Int) < system.pool.thrMax →
            system.pool.queue.length ≤ system.workers.countP WorkerPc.available) :
    Manned { system with
      pool := pool
      dispatchers := system.dispatchers.set index { call with pc := pc }
      workers := if started then system.workers ++ [.loopTest] else system.workers } := by
  intro valid several room
  have sameMax := (thrmgrDispatch_counters moved (counters.dispatcherMutex found)).2.2.2.2
  have spawning := callsAt_set found pc DispatchPc.beforeSpawn
  simp only [workersAt_started, WorkerPc.staying, WorkerPc.available, Bool.and_true] at room ⊢
  rw [sameMax] at several room
  have stateSame := thrmgrDispatch_state moved
  rcases thrmgrDispatch_grows moved created with balanced | ⟨testing, rfl, rfl, rfl, unspawned⟩
  · have before := manned (stateSame ▸ valid) several (by omega)
    omega
  · have covered := enough testing unspawned several (by simpa using room)
    simp only [Bool.toNat_false]
    omega

theorem Manned.workerMove {system : System Data} {index : Nat} {outcome : Bool}
    {old new : WorkerPc Data} {pool : Pool Data} (manned : Manned system)
    (counters : Counters system) (ledger : Ledger system)
    (unrefused : callsAt system.dispatchers DispatchPc.lateRefusal = 0)
    (found : system.workers[index]? = some old)
    (moved : thrmgrWorker system.pool outcome old = some (pool, new))
    (spare : outcome = false → old = .semWait →
      0 < callsAt system.dispatchers DispatchPc.decided → 1 < system.pool.thrMax →
        system.pool.queue.length < system.workers.countP WorkerPc.available +
          callsAt system.dispatchers DispatchPc.beforeSpawn) :
    Manned { system with pool := pool, workers := system.workers.set index new } := by
  intro valid several room
  have sameMax := (thrmgrWorker_counters moved (counters.workerMutex found)).2.2.2.2.1
  have available := countP_set_balance WorkerPc.available found new
  have staying := countP_set_balance WorkerPc.staying found new
  rw [thrmgrWorker_state moved] at valid
  dsimp only at several room ⊢
  rw [sameMax] at several room
  obtain ⟨_, same | ⟨rfl, rfl, noToken, rfl, rfl⟩⟩ := thrmgrWorker_staying moved valid
  · have before := manned valid several (by rw [same] at staying; omega)
    have change := thrmgrWorker_available moved valid
      (fun atPop => ledger.pop_finds_job valid (atPop ▸ found))
      (fun waiting => by subst waiting; exact thrmgrWorker_woken moved same)
    omega
  · -- the wait times out: the worker is lost for the jobs
    by_cases posted : callsAt system.dispatchers DispatchPc.decided = 0
    · have jobs := ledger.jobs_le_of_posted valid noToken unrefused posted
      have tokens := countP_set_balance WorkerPc.hasToken found (.decIdle false)
      have holders := List.countP_mono_left (l := system.workers.set index (.decIdle false))
        (fun pc _ => WorkerPc.available_of_hasToken pc)
      simp only [WorkerPc.hasToken, Bool.toNat_false] at tokens
      omega
    · have fewer := spare rfl rfl (by omega) several
      simp only [WorkerPc.available, Bool.toNat_true, Bool.toNat_false] at available
      omega

theorem manned_reachable {system : System Data}
    (reached : Reachable step Created growsInTime system) : Manned system := by
  refine reached.invariant Manned (fun system created _ _ _ => ?_) ?_
  · simp [created.fresh.queue]
  · intro system action next before manned permitted taken
    have counters := counters_reachable before
    cases step_move taken with
    | call userData =>
        simpa [Manned, callsAt_append, DispatchPc.beforeSpawn] using manned
    | dispatcher found moved =>
        obtain ⟨created, enough⟩ := permitted
        exact manned.dispatcherMove counters found moved (created _ found) (enough _ found)
    | @worker index outcome old new pool found moved =>
        refine manned.workerMove counters (ledger_reachable before)
          (lateRefusal_zero (fun _ _ grows => grows.1) before) found moved ?_
        intro timedOut waiting
        subst timedOut waiting
        exact permitted.2 found
    | destroyer moved =>
        obtain ⟨_, _, _, queue, valid, _⟩ := thrmgrDestroy_ledger moved
        have sameMax := (thrmgrDestroy_counters moved counters.destroyerMutex).2.2.2
        intro nowValid several room
        dsimp only at several room ⊢
        rw [sameMax] at several room
        rw [queue]
        exact manned (valid nowValid) several room

/-- In every run whose dispatches start a thread before jobs outnumber the workers
that come for them, no job waits behind running handlers in a pool that may grow. -/
theorem grownWhenNeeded_of_growsInTime {system : System Data}
    (reached : Reachable step Created growsInTime system) : GrownWhenNeeded system := by
  intro valid someone finished jobs busy
  have counters := counters_reachable reached
  have atRest : ∀ point : DispatchPc → Bool, (∀ pc, pc.inProgress = false → point pc = false) →
      callsAt system.dispatchers point = 0 := fun point outside =>
    countP_eq_zero_iff_none.mpr fun call member => outside call.pc (finished call member)
  have spawning := atRest DispatchPc.spawned fun pc => by
    cases pc <;> simp [DispatchPc.inProgress, DispatchPc.spawned]
  have deciding := atRest DispatchPc.beforeSpawn fun pc => by
    cases pc <;> simp [DispatchPc.inProgress, DispatchPc.beforeSpawn]
  have nobody : system.workers.countP WorkerPc.available = 0 := by
    refine countP_eq_zero_iff_none.mpr fun pc member => ?_
    cases available : pc.available with
    | false => rfl
    | true =>
        obtain ⟨counted, outside⟩ := pc.not_inHandler_of_available available
        rw [busy pc member counted] at outside
        cases outside
  have waiting : 0 < system.pool.queue.length := List.length_pos_iff.mpr jobs
  have alive := counters.alive
  have room := counters.room
  have staying := List.countP_mono_left (l := system.workers)
    (fun pc _ => WorkerPc.counted_of_staying pc)
  by_contra below
  have manned := manned_reachable reached valid (by omega) (by omega)
  omega

/-- Both threads of a pool of two are in the handler when the third job comes. -/
def fullPool : List (Action Nat) :=
  firstCall ++ List.replicate 8 (.worker 0 true) ++
    .callDispatch 8 :: List.replicate 8 (.dispatcher 1 true) ++ List.replicate 8 (.worker 1 true) ++
    .callDispatch 9 :: List.replicate 6 (.dispatcher 2 true)

theorem fullPool_finishes : (run step (startedPool 2 30000) fullPool).isSome = true := by decide

theorem grownWhenNeeded_of_growsInTime_fullPool :
    ∃ system, run step (startedPool 2 30000) fullPool = some system ∧
      system.pool.queue = [9] ∧ system.pool.thrAlive = system.pool.thrMax := by
  have reached : Reachable step Created growsInTime
      ((run step (startedPool 2 30000) fullPool).get fullPool_finishes) :=
    .of_run (startedPool_created (by decide)) (by decide) fullPool_finishes
  exact ⟨_, (Option.some_get fullPool_finishes).symm, by decide,
    grownWhenNeeded_of_growsInTime reached (by decide) (by decide) (by decide) (by decide)
      (by decide)⟩

/-- The only worker is back at its wait when two calls come. Both read `thr_idle = 1`
and start nobody; the worker wakes, takes the first job and runs its handler. -/
def burst : List (Action Nat) :=
  firstCall ++ List.replicate 11 (.worker 0 true) ++
    .callDispatch 8 :: List.replicate 6 (.dispatcher 1 true) ++
    .callDispatch 9 :: List.replicate 6 (.dispatcher 2 true) ++ List.replicate 6 (.worker 0 true)

theorem burst_keeps_job_waiting :
    ¬ ∀ system : System Nat, Reachable step Created creationSucceeds system →
      GrownWhenNeeded system := by
  intro always
  have reached : Reachable step Created creationSucceeds
      ((run step (startedPool 300 30000) burst).get (by decide)) :=
    .of_run (startedPool_created (by decide)) (by decide) (by decide)
  have grown := always _ reached (by decide) (by decide) (by decide) (by decide) (by decide)
  revert grown
  decide

end DcCluster.ThreadPool
