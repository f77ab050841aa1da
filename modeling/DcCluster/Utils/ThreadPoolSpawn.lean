import DcCluster.Utils.ThreadPoolJobs

/-!
When an accepted job finds a worker. `thrmgr_dispatch` starts no thread if it
reads `thr_idle ≠ 0`, but the worker it counted on may have timed out already, or
time out before the token is posted; it starts none either if `thr_alive` has
reached `thr_max`, although all of these workers may be on their way out. Either
way the job stays in the queue with nobody to run it.
-/

namespace DcCluster.ThreadPool

open DcCluster.Lib

variable {Data : Type}

/-- The worker will come back to the queue: its wait has not timed out. -/
@[grind] def WorkerPc.staying : WorkerPc Data → Bool
  | .decIdle retval | .exitTest retval => retval
  | .lockExit | .decAlive | .lastTest | .unlockExit _ | .postLast | .finished => false
  | _ => true

/-- The worker has decided to exit and is still in `thr_alive`. -/
@[grind] def WorkerPc.leaving : WorkerPc Data → Bool
  | .decIdle retval | .exitTest retval => !retval
  | .lockExit | .decAlive => true
  | _ => false

@[grind] def DispatchPc.beforeSpawn : DispatchPc → Bool
  | .idleTest | .create => true
  | _ => false

/-- The call relies on the workers there are and has not posted its token yet. -/
@[grind] def DispatchPc.decided : DispatchPc → Bool
  | .incAlive | .unlock | .post => true
  | _ => false

@[grind] def DispatchPc.lateRefusal : DispatchPc → Bool
  | .refuse added => added
  | .returned result added => !result && added
  | _ => false

/-- No job waits in a valid pool without a worker that will come for it. -/
def NoStrandedJob (system : System Data) : Prop :=
  system.pool.state = .valid → system.pool.queue ≠ [] →
    (∀ call ∈ system.dispatchers, call.pc.inProgress = false) →
      ∃ pc ∈ system.workers, pc.staying = true

def succeedsAt (point : DispatchPc) (system : System Data) : Action Data → Prop
  | .dispatcher index outcome => ∀ call ∈ system.dispatchers[index]?, call.pc = point → outcome = true
  | _ => True

def allocationSucceeds : System Data → Action Data → Prop := succeedsAt .add

def creationSucceeds : System Data → Action Data → Prop := succeedsAt .create

/-- No call is left to a worker that is leaving: a call that tests `thr_idle`
while some worker is leaving starts a new one or has another one that stays, and
a wait that times out while a call has still to post its token leaves another
worker behind. -/
def noLostWakeup (system : System Data) : Action Data → Prop
  | .dispatcher index _ => ∀ call ∈ system.dispatchers[index]?, call.pc = .idleTest →
      0 < system.workers.countP WorkerPc.leaving →
        (system.pool.thrIdle = 0 ∧ system.pool.thrAlive < system.pool.thrMax) ∨
          0 < system.workers.countP WorkerPc.staying
  | .worker index false => system.workers[index]? = some .semWait →
      0 < callsAt system.dispatchers DispatchPc.decided →
        1 < system.workers.countP WorkerPc.staying
  | _ => True

def wakeupSafe (system : System Data) (action : Action Data) : Prop :=
  creationSucceeds system action ∧ noLostWakeup system action

instance (point : DispatchPc) (system : System Data) :
    ∀ action, Decidable (succeedsAt point system action)
  | .dispatcher index outcome =>
      inferInstanceAs (Decidable (∀ call ∈ system.dispatchers[index]?,
        call.pc = point → outcome = true))
  | .callDispatch _ | .worker _ _ | .destroyer => isTrue trivial

instance (system : System Data) (action : Action Data) :
    Decidable (creationSucceeds system action) :=
  inferInstanceAs (Decidable (succeedsAt .create system action))

instance (system : System Data) (action : Action Data) :
    Decidable (allocationSucceeds system action) :=
  inferInstanceAs (Decidable (succeedsAt .add system action))

instance [DecidableEq Data] (system : System Data) : ∀ action, Decidable (noLostWakeup system action)
  | .dispatcher index _ =>
      inferInstanceAs (Decidable (∀ call ∈ system.dispatchers[index]?, call.pc = .idleTest → _))
  | .worker index false =>
      inferInstanceAs (Decidable (system.workers[index]? = some .semWait → _))
  | .callDispatch _ | .worker _ true | .destroyer => isTrue trivial

instance [DecidableEq Data] (system : System Data) (action : Action Data) :
    Decidable (wakeupSafe system action) :=
  inferInstanceAs (Decidable (creationSucceeds system action ∧ noLostWakeup system action))

/-- The invariant behind `NoStrandedJob`: any job beyond the one of a call that
has still to decide is covered by a worker that stays. -/
structure Covered (system : System Data) : Prop where
  unrefused : callsAt system.dispatchers DispatchPc.lateRefusal = 0
  covered : system.pool.state = .valid →
    callsAt system.dispatchers DispatchPc.beforeSpawn < system.pool.queue.length →
      0 < system.workers.countP WorkerPc.staying

theorem WorkerPc.staying_of_hasToken (pc : WorkerPc Data) (token : pc.hasToken = true) :
    pc.staying = true := by
  cases pc <;> simp_all [WorkerPc.hasToken, WorkerPc.staying]

theorem WorkerPc.staying_or_leaving_of_counted (pc : WorkerPc Data) (counted : pc.counted = true) :
    pc.staying = true ∨ pc.leaving = true := by
  cases pc <;> simp_all [WorkerPc.counted, WorkerPc.staying, WorkerPc.leaving]

theorem WorkerPc.staying_or_leaving_of_idling (pc : WorkerPc Data) (idling : pc.idling = true) :
    pc.staying = true ∨ pc.leaving = true := by
  cases pc <;> simp_all [WorkerPc.idling, WorkerPc.staying, WorkerPc.leaving]

theorem thrmgrWorker_staying {pool next : Pool Data} {outcome : Bool} {old new : WorkerPc Data}
    (moved : thrmgrWorker pool outcome old = some (next, new)) (valid : pool.state = .valid) :
    next.queue.length ≤ pool.queue.length ∧ (new.staying = old.staying ∨
      old = .semWait ∧ outcome = false ∧ pool.poolSigSem = 0 ∧ next = pool ∧ new = .decIdle false) := by
  cases old with
  | unlockPop job => cases job <;> grind -ring -linarith
  | _ => grind -ring -linarith

theorem thrmgrDispatch_covers {pool next : Pool Data} {outcome started : Bool} {userData : Data}
    {old new : DispatchPc}
    (moved : thrmgrDispatch pool outcome userData old = some (next, new, started))
    (created : old = .create → outcome = true)
    (unrefused : old.lateRefusal = false) :
    new.lateRefusal = false ∧
      (next.queue.length + old.beforeSpawn.toNat = pool.queue.length + new.beforeSpawn.toNat ∨
        started = true ∨
        old = .idleTest ∧ next = pool ∧ ¬(pool.thrIdle = 0 ∧ pool.thrAlive < pool.thrMax)) := by
  cases old <;> grind -ring -linarith

theorem DispatchPc.decided_of_beforePost (pc : DispatchPc) (posting : pc.beforePost = true) :
    pc.decided = true := by
  cases pc <;> simp_all [DispatchPc.beforePost, DispatchPc.decided]

theorem DispatchPc.lateRefusal_of_refusedAfterAdd (pc : DispatchPc)
    (refused : pc.refusedAfterAdd = true) : pc.lateRefusal = true := by
  cases pc <;> simp_all [DispatchPc.refusedAfterAdd, DispatchPc.lateRefusal]

theorem DispatchPc.addedInside_covered (pc : DispatchPc) (inside : pc.addedInside = true) :
    pc.beforeSpawn = true ∨ (pc.decided || pc.lateRefusal) = true := by
  cases pc <;> simp_all [DispatchPc.addedInside, DispatchPc.beforeSpawn, DispatchPc.decided,
    DispatchPc.lateRefusal]

/-- A wait times out only while no token is posted; the jobs for which no call has
still to post are then matched by tokens in the hands of other workers. -/
theorem Ledger.jobs_le_of_posted {system : System Data} (ledger : Ledger system)
    (valid : system.pool.state = .valid) (noToken : system.pool.poolSigSem = 0)
    (unrefused : callsAt system.dispatchers DispatchPc.lateRefusal = 0)
    (posted : callsAt system.dispatchers DispatchPc.decided = 0) :
    system.pool.queue.length ≤ callsAt system.dispatchers DispatchPc.beforeSpawn +
      system.workers.countP WorkerPc.hasToken := by
  have tokens := ledger.tokens valid
  have posting := callsAt_mono DispatchPc.decided_of_beforePost system.dispatchers
  have refused := callsAt_mono DispatchPc.lateRefusal_of_refusedAfterAdd system.dispatchers
  have inside := callsAt_le_add DispatchPc.addedInside_covered system.dispatchers
  have settled : callsAt system.dispatchers (fun pc => pc.decided || pc.lateRefusal) ≤ _ :=
    callsAt_le_add (fun _ either => by simpa using either) system.dispatchers
  omega

theorem Counters.staying_of_unspawned {system : System Data} (counters : Counters system)
    (unspawned : ¬(system.pool.thrIdle = 0 ∧ system.pool.thrAlive < system.pool.thrMax))
    (nobodyLeaves : system.workers.countP WorkerPc.leaving = 0) :
    0 < system.workers.countP WorkerPc.staying := by
  have alive := counters.alive
  have idle := counters.idle
  have positive := counters.positive
  have counted := countP_le_add WorkerPc.staying_or_leaving_of_counted system.workers
  have idling := countP_le_add WorkerPc.staying_or_leaving_of_idling system.workers
  omega

theorem Covered.dispatcherMove {system : System Data} {index : Nat} {outcome started : Bool}
    {call : Dispatcher Data} {pc : DispatchPc} {pool : Pool Data} (covered : Covered system)
    (counters : Counters system) (found : system.dispatchers[index]? = some call)
    (moved : thrmgrDispatch system.pool outcome call.userData call.pc = some (pool, pc, started))
    (created : call.pc = .create → outcome = true)
    (safe : call.pc = .idleTest → 0 < system.workers.countP WorkerPc.leaving →
      (system.pool.thrIdle = 0 ∧ system.pool.thrAlive < system.pool.thrMax) ∨
        0 < system.workers.countP WorkerPc.staying) :
    Covered { system with
      pool := pool
      dispatchers := system.dispatchers.set index { call with pc := pc }
      workers := if started then system.workers ++ [.loopTest] else system.workers } := by
  have unrefused : call.pc.lateRefusal = false := by
    by_contra refusing
    have here := callsAt_pos found (Bool.not_eq_false _ ▸ refusing)
    exact absurd covered.unrefused (Nat.ne_of_gt here)
  obtain ⟨keptRefusal, change⟩ := thrmgrDispatch_covers moved created unrefused
  have refusing := callsAt_set found pc DispatchPc.lateRefusal
  have spawning := callsAt_set found pc DispatchPc.beforeSpawn
  refine ⟨?_, ?_⟩
  · have none := covered.unrefused
    simp only [keptRefusal, Bool.toNat_false] at refusing
    dsimp only
    omega
  · intro valid jobs
    simp only [workersAt_started, WorkerPc.staying, Bool.and_true]
    rcases change with balanced | spawned | ⟨testing, unchanged, unspawned⟩
    · have before := covered.covered (thrmgrDispatch_state moved ▸ valid)
      dsimp only at jobs
      omega
    · simp [spawned]
    · by_cases nobody : system.workers.countP WorkerPc.leaving = 0
      · have stays := counters.staying_of_unspawned unspawned nobody
        omega
      · have stays := (safe testing (by omega)).resolve_left unspawned
        omega

theorem Covered.workerMove {system : System Data} {index : Nat} {outcome : Bool}
    {old new : WorkerPc Data} {pool : Pool Data} (covered : Covered system)
    (ledger : Ledger system) (found : system.workers[index]? = some old)
    (moved : thrmgrWorker system.pool outcome old = some (pool, new))
    (safe : outcome = false → old = .semWait →
      0 < callsAt system.dispatchers DispatchPc.decided →
        1 < system.workers.countP WorkerPc.staying) :
    Covered { system with pool := pool, workers := system.workers.set index new } := by
  refine ⟨covered.unrefused, ?_⟩
  intro valid jobs
  rw [thrmgrWorker_state moved] at valid
  obtain ⟨shrinks, change⟩ := thrmgrWorker_staying moved valid
  have staying := countP_set_balance WorkerPc.staying found new
  dsimp only at jobs ⊢
  rcases change with same | ⟨waiting, timedOut, noToken, unchanged, left⟩
  · have before := covered.covered valid (by omega)
    rw [same] at staying
    omega
  · subst waiting left unchanged
    by_cases posted : callsAt system.dispatchers DispatchPc.decided = 0
    · have token := ledger.jobs_le_of_posted valid noToken covered.unrefused posted
      have tokens := countP_set_balance WorkerPc.hasToken found (.decIdle false)
      have stays := List.countP_mono_left (l := system.workers.set index (.decIdle false))
        (fun pc _ => WorkerPc.staying_of_hasToken pc)
      simp only [WorkerPc.hasToken, Bool.toNat_false] at tokens
      omega
    · have others := safe timedOut rfl (by omega)
      simp only [WorkerPc.staying, Bool.toNat_true, Bool.toNat_false] at staying
      omega

theorem covered_reachable {system : System Data}
    (reached : Reachable step Created wakeupSafe system) : Covered system := by
  refine reached.invariant Covered (fun system created => ?_) ?_
  · have fresh := created.fresh
    refine ⟨by simp [fresh.dispatchers, callsAt], ?_⟩
    intro _ jobs
    simp [fresh.queue] at jobs
  · intro system action next before covered permitted taken
    cases step_move taken with
    | call userData =>
        refine ⟨?_, ?_⟩
        · simpa [callsAt_append, DispatchPc.lateRefusal] using covered.unrefused
        · simpa [callsAt_append, DispatchPc.beforeSpawn] using covered.covered
    | dispatcher found moved =>
        obtain ⟨created, safe⟩ := permitted
        exact covered.dispatcherMove (counters_reachable before) found moved (created _ found)
          (safe _ found)
    | @worker index outcome old new pool found moved =>
        refine covered.workerMove (ledger_reachable before) found moved ?_
        intro timedOut waiting
        subst timedOut waiting
        exact permitted.2 found
    | destroyer moved =>
        obtain ⟨_, _, _, queue, valid, _⟩ := thrmgrDestroy_ledger moved
        refine ⟨covered.unrefused, fun nowValid jobs => ?_⟩
        rw [queue] at jobs
        exact covered.covered (valid nowValid) jobs

/-- In every run whose steps avoid the lost wake-up, an accepted job always has
a worker that will come for it. -/
theorem noStrandedJob_of_wakeupSafe {system : System Data}
    (reached : Reachable step Created wakeupSafe system) : NoStrandedJob system := by
  intro valid jobs finished
  have covered := covered_reachable reached
  have decided : callsAt system.dispatchers DispatchPc.beforeSpawn = 0 := by
    refine countP_eq_zero_iff_none.mpr fun call member => ?_
    have returned := finished call member
    cases pc : call.pc <;> simp_all [DispatchPc.inProgress, DispatchPc.beforeSpawn]
  have pending : 0 < system.pool.queue.length := List.length_pos_iff.mpr jobs
  exact List.countP_pos_iff.mp (covered.covered valid (by omega))

def firstCall : List (Action Nat) := .callDispatch 7 :: List.replicate 8 (.dispatcher 0 true)

theorem noStrandedJob_of_wakeupSafe_firstCall :
    ∃ system, run step (startedPool 300 30000) firstCall = some system ∧
      system.pool.queue = [7] ∧ ∃ pc ∈ system.workers, pc.staying = true := by
  have reached : Reachable step Created wakeupSafe
      ((run step (startedPool 300 30000) firstCall).get (by decide)) :=
    .of_run (startedPool_created (by decide)) (by decide) (by decide)
  exact ⟨_, (Option.some_get _).symm, by decide,
    noStrandedJob_of_wakeupSafe reached (by decide) (by decide) (by decide)⟩

/-- The only worker runs its first job, waits again and times out; before it has
decremented `thr_idle`, a second call adds a job, reads `thr_idle = 1`, starts
nobody, posts and returns. -/
def timedOutWorker : List (Action Nat) :=
  firstCall ++ List.replicate 11 (.worker 0 true) ++ [.worker 0 false] ++
    .callDispatch 8 :: List.replicate 6 (.dispatcher 1 true)

theorem timedOutWorker_strands_job :
    ¬ ∀ system : System Nat, Reachable step Created
        (fun system action => allocationSucceeds system action ∧ creationSucceeds system action)
        system → NoStrandedJob system := by
  intro always
  have reached : Reachable step Created
      (fun system action => allocationSucceeds system action ∧ creationSucceeds system action)
      ((run step (startedPool 300 30000) timedOutWorker).get (by decide)) :=
    .of_run (startedPool_created (by decide)) (by decide) (by decide)
  have stays := always _ reached (by decide) (by decide) (by decide)
  revert stays
  decide

end DcCluster.ThreadPool
