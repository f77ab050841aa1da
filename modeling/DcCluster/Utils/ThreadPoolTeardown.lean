import DcCluster.Utils.ThreadPoolJobs

/-!
The end of the pool. `thrmgr_destroy` stores `POOL_EXIT`, posts one token for
every worker that it counts under the mutex and waits for the last of them to
post `pool_sem`. The handshake never gets stuck. It does not always cover the
last worker, though: one that makes its final decrement between the store and
the count signals a `thrmgr_destroy` that no longer waits.
-/

namespace DcCluster.ThreadPool

open DcCluster.Lib

variable {Data : Type}

@[grind] def WorkerPc.unfinished : WorkerPc Data → Bool
  | .finished => false
  | _ => true

/-- The worker has found that it is the last one and has not posted `pool_sem` yet. -/
@[grind] def WorkerPc.posting : WorkerPc Data → Bool
  | .unlockExit signal => signal
  | .postLast => true
  | _ => false

@[grind] def WorkerPc.deciding : WorkerPc Data → Bool
  | .lastTest => true
  | _ => false

@[grind] def WorkerPc.willWait : WorkerPc Data → Bool
  | .incIdle | .semWait => true
  | _ => false

@[grind] def DispatchPc.admitted : DispatchPc → Bool
  | .add | .idleTest | .create | .incAlive => true
  | _ => false

@[grind] def DestroyPc.beforeFree : DestroyPc → Bool
  | .free | .returned => false
  | _ => true

@[grind] def DestroyPc.owed : DestroyPc → Option Nat
  | .signal existed => some existed
  | .unlock true | .waitLast => some 0
  | _ => none

theorem WorkerPc.unfinished_of_posting (pc : WorkerPc Data) (posting : pc.posting = true) :
    pc.unfinished = true := by
  cases pc <;> simp_all [WorkerPc.posting, WorkerPc.unfinished]

theorem WorkerPc.unfinished_covered (pc : WorkerPc Data) (unfinished : pc.unfinished = true) :
    pc.counted = true ∨ (pc.holdsMutex || pc.posting) = true := by
  cases pc <;> simp_all [WorkerPc.unfinished, WorkerPc.counted, WorkerPc.holdsMutex, WorkerPc.posting]

theorem WorkerPc.counted_of_willWait (pc : WorkerPc Data) (waits : pc.willWait = true) :
    pc.counted = true := by
  cases pc <;> simp_all [WorkerPc.willWait, WorkerPc.counted]

theorem DispatchPc.holdsMutex_of_admitted (pc : DispatchPc) (admitted : pc.admitted = true) :
    pc.holdsMutex = true := by
  cases pc <;> simp_all [DispatchPc.admitted, DispatchPc.holdsMutex]

theorem thrmgrWorker_teardown {pool next : Pool Data} {outcome : Bool} {old new : WorkerPc Data}
    (moved : thrmgrWorker pool outcome old = some (next, new)) :
    old.unfinished = true ∧
    (old = .decAlive ∧ new = .lastTest ∧ next = { pool with thrAlive := pool.thrAlive - 1 } ∨
      old = .lastTest ∧ next = pool ∧
        new = .unlockExit (decide (pool.thrAlive = 0 ∧ pool.state = .exit)) ∨
      old.deciding = false ∧ new.deciding = false ∧ next.thrAlive = pool.thrAlive ∧
        next.poolSemPosts + new.posting.toNat = pool.poolSemPosts + old.posting.toNat ∧
        next.poolSem + pool.poolSemPosts = pool.poolSem + next.poolSemPosts ∧
        pool.poolSemPosts ≤ next.poolSemPosts ∧
        (old.posting = true → new.unfinished = new.posting)) := by
  cases old with
  | unlockPop job => cases job <;> grind -ring -linarith
  | _ => grind -ring -linarith

theorem thrmgrWorker_willWait {pool next : Pool Data} {outcome : Bool} {old new : WorkerPc Data}
    (moved : thrmgrWorker pool outcome old = some (next, new)) (exiting : pool.state = .exit) :
    pool.poolSigSem + new.willWait.toNat ≤ next.poolSigSem + old.willWait.toNat := by
  cases old with
  | unlockPop job => cases job <;> grind -ring -linarith
  | _ => grind -ring -linarith

theorem thrmgrDispatch_exiting {pool next : Pool Data} {outcome started : Bool} {userData : Data}
    {old new : DispatchPc}
    (moved : thrmgrDispatch pool outcome userData old = some (next, new, started))
    (exiting : pool.state = .exit) (outside : old.admitted = false) :
    new.admitted = false ∧ started = false ∧ next.thrAlive = pool.thrAlive := by
  cases old <;> grind -ring -linarith

theorem thrmgrDispatch_sems {pool next : Pool Data} {outcome started : Bool} {userData : Data}
    {old new : DispatchPc}
    (moved : thrmgrDispatch pool outcome userData old = some (next, new, started)) :
    next.poolSem = pool.poolSem ∧ next.poolSemPosts = pool.poolSemPosts ∧
      pool.poolSigSem ≤ next.poolSigSem ∧ pool.thrAlive ≤ next.thrAlive := by
  cases old <;> grind -ring -linarith

theorem thrmgrDestroy_sems {pool next : Pool Data} {old new : DestroyPc}
    (moved : thrmgrDestroy pool old = some (next, new)) :
    next.thrAlive = pool.thrAlive ∧ next.poolSemPosts = pool.poolSemPosts ∧
      (pool.state = .exit → next.state = .exit) ∧
      (new.beforeFree = true → next.poolSem = pool.poolSem ∧ old.beforeFree = true) := by
  cases old with
  | signal existed => cases existed <;> grind -ring -linarith
  | _ => grind -ring -linarith

/-- At most one worker ever signals `pool_sem`. From the moment it has decided
to, it is the only worker left, `thr_alive` stays 0 and no call is admitted. -/
structure LastSignal (system : System Data) : Prop where
  once : system.workers.countP WorkerPc.posting + system.pool.poolSemPosts ≤ 1
  last : 0 < system.workers.countP WorkerPc.posting + system.pool.poolSemPosts →
    system.workers.countP WorkerPc.unfinished = system.workers.countP WorkerPc.posting ∧
      system.pool.thrAlive = 0 ∧ system.pool.state = .exit ∧
      callsAt system.dispatchers DispatchPc.admitted = 0
  sem : system.destroyer.beforeFree = true → system.pool.poolSem = system.pool.poolSemPosts

theorem LastSignal.created {system : System Data} (created : Created system) :
    LastSignal system := by
  have fresh := created.fresh
  refine ⟨?_, ?_, ?_⟩ <;> simp [fresh.workers, fresh.poolSemPosts, fresh.poolSem]

theorem posting_of_unfinished {workers : List (WorkerPc Data)} {index : Nat} {pc : WorkerPc Data}
    (found : workers[index]? = some pc) (unfinished : pc.unfinished = true)
    (onlyPosting : workers.countP WorkerPc.unfinished = workers.countP WorkerPc.posting) :
    pc.posting = true := by
  have others := List.countP_mono_left (l := workers.set index .finished)
    (fun pc _ => WorkerPc.unfinished_of_posting pc)
  have left := countP_set_balance WorkerPc.unfinished found .finished
  have posts := countP_set_balance WorkerPc.posting found .finished
  cases posting : pc.posting with
  | true => rfl
  | false =>
      rw [unfinished, show (.finished : WorkerPc Data).unfinished = false from rfl] at left
      rw [posting, show (.finished : WorkerPc Data).posting = false from rfl] at posts
      simp only [Bool.toNat_true, Bool.toNat_false] at left posts
      omega

theorem Counters.last_worker {system : System Data} {index : Nat} (counters : Counters system)
    (found : system.workers[index]? = some .lastTest) (nobody : system.pool.thrAlive = 0) :
    system.workers.countP WorkerPc.unfinished ≤ 1 + system.workers.countP WorkerPc.posting ∧
      callsAt system.dispatchers DispatchPc.admitted = 0 := by
  -- The worker still holds the mutex, so no call is admitted, and thr_alive counts all workers
  -- that have not made their final decrement.
  have mutex := counters.mutex
  have alive := counters.alive
  have exclusive : system.pool.poolMutex.toNat ≤ 1 := Bool.toNat_le _
  have holder : 0 < system.workers.countP WorkerPc.holdsMutex :=
    countP_pos_of_found _ found rfl
  have spawners := callsAt_mono DispatchPc.holdsMutex_of_spawned system.dispatchers
  have admitted := callsAt_mono DispatchPc.holdsMutex_of_admitted system.dispatchers
  have unfinished := countP_le_add WorkerPc.unfinished_covered system.workers
  have either : system.workers.countP (fun pc => pc.holdsMutex || pc.posting) ≤ _ :=
    countP_le_add (fun _ here => by simpa using here) system.workers
  omega

theorem LastSignal.workerMove {system : System Data} {index : Nat} {outcome : Bool}
    {old new : WorkerPc Data} {pool : Pool Data} (signal : LastSignal system)
    (counters : Counters system) (found : system.workers[index]? = some old)
    (moved : thrmgrWorker system.pool outcome old = some (pool, new)) :
    LastSignal { system with pool := pool, workers := system.workers.set index new } := by
  obtain ⟨once, last, sem⟩ := signal
  obtain ⟨unfinished, change⟩ := thrmgrWorker_teardown moved
  have posting := countP_set_balance WorkerPc.posting found new
  have finishing := countP_set_balance WorkerPc.unfinished found new
  have exitState := thrmgrWorker_state moved
  rcases change with ⟨rfl, rfl, rfl⟩ | ⟨rfl, rfl, rfl⟩ | ⟨_, _, alive, balanced, posted, _, leaves⟩
  · -- a worker that is still counted excludes a signal
    simp only [WorkerPc.posting, Bool.toNat_false] at posting
    have none : ¬ 0 < system.workers.countP WorkerPc.posting + system.pool.poolSemPosts := by
      intro signalled
      have contradiction := posting_of_unfinished found unfinished (last signalled).1
      simp [WorkerPc.posting] at contradiction
    refine ⟨?_, fun signalled => absurd ?_ none, sem⟩
    · dsimp only
      omega
    · dsimp only at signalled
      omega
  · have none : ¬ 0 < system.workers.countP WorkerPc.posting + system.pool.poolSemPosts := by
      intro signalled
      have contradiction := posting_of_unfinished found unfinished (last signalled).1
      simp [WorkerPc.posting] at contradiction
    by_cases isLast : system.pool.thrAlive = 0 ∧ system.pool.state = .exit
    · have alone := counters.last_worker found isLast.1
      simp only [isLast, and_self, decide_true, WorkerPc.posting, WorkerPc.unfinished,
        Bool.toNat_true, Bool.toNat_false] at posting finishing ⊢
      have here := countP_pos_of_found WorkerPc.unfinished found rfl
      refine ⟨?_, fun _ => ⟨?_, isLast.1, isLast.2, alone.2⟩, sem⟩ <;> dsimp only <;> omega
    · simp only [isLast, decide_false, WorkerPc.posting, Bool.toNat_false] at posting ⊢
      refine ⟨?_, fun signalled => absurd ?_ none, sem⟩
      · dsimp only
        omega
      · dsimp only at signalled
        omega
  · refine ⟨?_, ?_, ?_⟩
    · dsimp only
      omega
    · intro signalled
      dsimp only at signalled ⊢
      obtain ⟨onlyPosting, nobody, exiting, outside⟩ := last (by omega)
      have wasPosting := posting_of_unfinished found unfinished onlyPosting
      have same := leaves wasPosting
      rw [unfinished, same] at finishing
      rw [wasPosting] at posting
      exact ⟨by omega, by omega, by rw [exitState]; exact exiting, outside⟩
    · intro before
      have kept := sem before
      dsimp only
      omega

theorem LastSignal.dispatcherMove {system : System Data} {index : Nat} {outcome started : Bool}
    {call : Dispatcher Data} {pc : DispatchPc} {pool : Pool Data} (signal : LastSignal system)
    (found : system.dispatchers[index]? = some call)
    (moved : thrmgrDispatch system.pool outcome call.userData call.pc = some (pool, pc, started)) :
    LastSignal { system with
      pool := pool
      dispatchers := system.dispatchers.set index { call with pc := pc }
      workers := if started then system.workers ++ [.loopTest] else system.workers } := by
  obtain ⟨sem, posts, _, _⟩ := thrmgrDispatch_sems moved
  have posting := workersAt_started system.workers started WorkerPc.posting
  simp only [WorkerPc.posting, Bool.and_false, Bool.toNat_false, Nat.add_zero] at posting
  refine ⟨?_, ?_, ?_⟩
  · simpa only [posting, posts] using signal.once
  · intro signalled
    simp only [posting, posts] at signalled
    obtain ⟨onlyPosting, nobody, exiting, outside⟩ := signal.last signalled
    have notAdmitted : call.pc.admitted = false := by
      by_contra admitted
      have here := callsAt_pos found (Bool.not_eq_false _ ▸ admitted)
      omega
    obtain ⟨stays, unstarted, alive⟩ := thrmgrDispatch_exiting moved exiting notAdmitted
    have admitted := callsAt_set found pc DispatchPc.admitted
    rw [stays] at admitted
    subst unstarted
    refine ⟨onlyPosting, alive.trans nobody, (thrmgrDispatch_state moved).trans exiting, ?_⟩
    simp only [Bool.toNat_false] at admitted
    dsimp only
    omega
  · intro before
    simpa only [sem, posts] using signal.sem before

theorem LastSignal.move {system next : System Data} {action : Action Data}
    (signal : LastSignal system) (counters : Counters system)
    (moved : Move system action next) : LastSignal next := by
  cases moved with
  | call userData =>
      refine ⟨signal.once, ?_, signal.sem⟩
      simpa [callsAt_append, DispatchPc.admitted] using signal.last
  | dispatcher found moved => exact signal.dispatcherMove found moved
  | worker found moved => exact signal.workerMove counters found moved
  | destroyer moved =>
      obtain ⟨alive, posts, exiting, sem⟩ := thrmgrDestroy_sems moved
      refine ⟨?_, ?_, ?_⟩
      · simpa only [posts] using signal.once
      · intro signalled
        simp only [posts] at signalled
        obtain ⟨onlyPosting, nobody, exits, outside⟩ := signal.last signalled
        exact ⟨onlyPosting, alive.trans nobody, exiting exits, outside⟩
      · intro before
        obtain ⟨kept, earlier⟩ := sem before
        simpa only [kept, posts] using signal.sem earlier

theorem lastSignal_reachable {allowed : System Data → Action Data → Prop} {system : System Data}
    (reached : Reachable step Created allowed system) : LastSignal system :=
  reached.invariant LastSignal (fun _ created => .created created)
    (fun _ _ _ before signal _ taken =>
      signal.move (counters_reachable before) (step_move taken))

/-- Once `thrmgr_destroy` has counted a worker, there are tokens for all workers
that wait or will wait, and somebody is left to post `pool_sem`. -/
structure Signalled (system : System Data) : Prop where
  tokens : ∀ existed ∈ system.destroyer.owed,
    system.workers.countP WorkerPc.willWait ≤ system.pool.poolSigSem + existed
  poster : system.destroyer.owed.isSome = true → 0 < system.pool.thrAlive ∨
    0 < system.workers.countP WorkerPc.deciding ∨
    0 < system.workers.countP WorkerPc.posting + system.pool.poolSemPosts

theorem DestroyPc.exiting_of_owed {pc : DestroyPc} (owing : pc.owed.isSome = true) :
    pc.beforeExit = false := by
  cases pc <;> simp_all [DestroyPc.owed, DestroyPc.beforeExit]

theorem Staged.exit_of_owed {system : System Data} (staged : Staged system)
    (owing : system.destroyer.owed.isSome = true) : system.pool.state = .exit := by
  have past := DestroyPc.exiting_of_owed owing
  cases state : system.pool.state with
  | exit => rfl
  | valid =>
      rw [staged.mp state] at past
      contradiction

theorem Signalled.workerMove {system : System Data} {index : Nat} {outcome : Bool}
    {old new : WorkerPc Data} {pool : Pool Data} (signalled : Signalled system)
    (staged : Staged system) (counters : Counters system)
    (found : system.workers[index]? = some old)
    (moved : thrmgrWorker system.pool outcome old = some (pool, new)) :
    Signalled { system with pool := pool, workers := system.workers.set index new } := by
  refine ⟨?_, ?_⟩
  · intro existed owed
    have exiting := staged.exit_of_owed (Option.isSome_of_mem owed)
    have tokens := signalled.tokens existed owed
    have change := thrmgrWorker_willWait moved exiting
    have waiting := countP_set_balance WorkerPc.willWait found new
    dsimp only
    omega
  · intro owing
    have poster := signalled.poster owing
    have exiting := staged.exit_of_owed owing
    have posting := countP_set_balance WorkerPc.posting found new
    have deciding := countP_set_balance WorkerPc.deciding found new
    have nonneg := counters.nonneg
    obtain ⟨_, change⟩ := thrmgrWorker_teardown moved
    dsimp only
    rcases change with ⟨rfl, rfl, rfl⟩ | ⟨rfl, rfl, rfl⟩ | ⟨before, after, alive, balanced, _, _, _⟩
    · -- the decrement: this worker is now the one to decide
      simp only [WorkerPc.deciding, Bool.toNat_true, Bool.toNat_false] at deciding
      omega
    · by_cases nobody : system.pool.thrAlive = 0
      · simp only [nobody, exiting, and_self, decide_true, WorkerPc.posting, Bool.toNat_true,
          Bool.toNat_false] at posting ⊢
        omega
      · omega
    · rw [before, after] at deciding
      omega

theorem Signalled.destroyerMove {system : System Data} {pool : Pool Data} {new : DestroyPc}
    (signalled : Signalled system) (counters : Counters system)
    (moved : thrmgrDestroy system.pool system.destroyer = some (pool, new)) :
    Signalled { system with pool := pool, destroyer := new } := by
  obtain ⟨tokens, poster⟩ := signalled
  obtain ⟨alive, posts, _, _⟩ := thrmgrDestroy_sems moved
  -- `thr_alive` is read under the mutex, where it counts every worker that may wait
  have snapshot (reading : system.destroyer = .readAlive) :
      (system.workers.countP WorkerPc.willWait : Int) ≤ system.pool.thrAlive := by
    have mutex := counters.mutex
    have exact := counters.alive
    have exclusive : system.pool.poolMutex.toNat ≤ 1 := Bool.toNat_le _
    have spawners := callsAt_mono DispatchPc.holdsMutex_of_spawned system.dispatchers
    have waiting := List.countP_mono_left (l := system.workers)
      (fun pc _ => WorkerPc.counted_of_willWait pc)
    simp only [reading, DestroyPc.holdsMutex, Bool.toNat_true] at mutex
    omega
  refine ⟨?_, ?_⟩
  · intro existed owed
    cases stage : system.destroyer with
    | signal left =>
        have before := tokens left (by simp [stage, DestroyPc.owed])
        cases left <;> grind -ring -linarith
    | unlock needWait =>
        have before := tokens 0
        cases needWait <;> grind -ring -linarith
    | readAlive =>
        have counted := snapshot stage
        rw [stage] at moved
        simp only [thrmgrDestroy, Option.some.injEq, Prod.mk.injEq] at moved
        obtain ⟨rfl, rfl⟩ := moved
        split at owed
        · simp only [DestroyPc.owed, Option.mem_some_iff] at owed
          dsimp only
          omega
        · simp [DestroyPc.owed] at owed
    | _ => grind -ring -linarith
  · intro owing
    simp only [alive, posts]
    cases stage : system.destroyer with
    | signal left => exact poster (by simp [stage, DestroyPc.owed])
    | unlock needWait => cases needWait <;> grind -ring -linarith
    | readAlive => grind -ring -linarith
    | _ => grind -ring -linarith

theorem Signalled.move {system next : System Data} {action : Action Data}
    (signalled : Signalled system) (staged : Staged system) (counters : Counters system)
    (moved : Move system action next) : Signalled next := by
  cases moved with
  | call userData => exact ⟨signalled.tokens, signalled.poster⟩
  | dispatcher found moved =>
      obtain ⟨_, posts, tokens, alive⟩ := thrmgrDispatch_sems moved
      refine ⟨?_, ?_⟩
      · intro existed owed
        have before := signalled.tokens existed owed
        simp only [workersAt_started, WorkerPc.willWait, Bool.and_false, Bool.toNat_false]
        omega
      · intro owing
        have before := signalled.poster owing
        simp only [workersAt_started, WorkerPc.posting, WorkerPc.deciding, Bool.and_false,
          Bool.toNat_false]
        omega
  | worker found moved => exact signalled.workerMove staged counters found moved
  | destroyer moved => exact signalled.destroyerMove counters moved

theorem signalled_reachable {allowed : System Data → Action Data → Prop} {system : System Data}
    (reached : Reachable step Created allowed system) : Signalled system := by
  refine reached.invariant Signalled (fun system created => ?_)
    (fun _ _ _ before signalled _ taken =>
      signalled.move (staged_reachable before) (counters_reachable before) (step_move taken))
  refine ⟨?_, ?_⟩ <;> simp [created.fresh.destroyer, DestroyPc.owed]

/-- `thrmgr_destroy` never waits in vain: a token is there, or a worker is about
to post it, or workers are alive and there are tokens for all that wait. The
last worker posts, with `thr_alive` 0, and only once. -/
theorem destroy_never_stuck {system : System Data}
    (reached : Reachable step Created anyAction system) :
    (system.destroyer = .waitLast →
      0 < system.pool.poolSem ∨
      (∃ pc ∈ system.workers, pc.posting = true ∨
        pc = .lastTest ∧ system.pool.thrAlive = 0 ∧ system.pool.state = .exit) ∨
      1 ≤ system.pool.thrAlive ∧
        system.workers.countP WorkerPc.willWait ≤ system.pool.poolSigSem) ∧
    (∀ index : Nat, system.workers[index]? = some .postLast → system.pool.thrAlive = 0) ∧
    system.pool.poolSemPosts ≤ 1 := by
  have signal := lastSignal_reachable reached
  have signalled := signalled_reachable reached
  refine ⟨?_, ?_, by have once := signal.once; omega⟩
  · intro waiting
    have owed : 0 ∈ system.destroyer.owed := by simp [waiting, DestroyPc.owed]
    have tokens := signalled.tokens 0 owed
    have sem := signal.sem (by simp [waiting, DestroyPc.beforeFree])
    have exiting := (staged_reachable reached).exit_of_owed (Option.isSome_of_mem owed)
    by_cases nobody : system.pool.thrAlive = 0
    · rcases signalled.poster (Option.isSome_of_mem owed) with alive | deciding | posting
      · omega
      · obtain ⟨pc, member, decides⟩ := List.countP_pos_iff.mp deciding
        cases pc <;> simp_all [WorkerPc.deciding]
        exact .inr ⟨_, member, .inr rfl⟩
      · by_cases posted : system.pool.poolSemPosts = 0
        · obtain ⟨pc, member, posts⟩ := List.countP_pos_iff.mp
            (show 0 < system.workers.countP WorkerPc.posting by omega)
          exact .inr (.inl ⟨pc, member, .inl posts⟩)
        · exact .inl (by omega)
    · have nonneg := (counters_reachable reached).nonneg
      exact .inr (.inr ⟨by omega, by omega⟩)
  · intro index found
    have posting := countP_pos_of_found WorkerPc.posting found rfl
    exact (signal.last (by omega)).2.1

def destroyWaits : List (Action Nat) :=
  .callDispatch 7 :: List.replicate 8 (.dispatcher 0 true) ++ List.replicate 11 (.worker 0 true) ++
    List.replicate 7 .destroyer

theorem destroy_never_stuck_destroyWaits :
    ∃ system, run step (startedPool 300 swartzInfinite) destroyWaits = some system ∧
      system.destroyer = .waitLast ∧ system.pool.poolSem = 0 ∧
      1 ≤ system.pool.thrAlive ∧
        system.workers.countP WorkerPc.willWait ≤ system.pool.poolSigSem := by
  have reached : Reachable step Created anyAction
      ((run step (startedPool 300 swartzInfinite) destroyWaits).get (by decide)) :=
    .of_run (startedPool_created (by decide)) (permitted_anyAction _ _ _) (by decide)
  refine ⟨(run step (startedPool 300 swartzInfinite) destroyWaits).get (by decide),
    (Option.some_get _).symm, by decide, by decide, ?_⟩
  rcases (destroy_never_stuck reached).1 (by decide) with token | posting | alive
  · exact absurd token (by decide)
  · exact absurd posting (by decide)
  · exact alive

/-- When `thrmgr_destroy` comes to its frees, nobody has an operation on the pool left. -/
def QuiescentAtFree (system : System Data) : Prop :=
  system.destroyer = .free →
    (∀ pc ∈ system.workers, pc = .finished) ∧
      ∀ call ∈ system.dispatchers, call.pc.inProgress = false

@[grind] def DestroyPc.beforeLock : DestroyPc → Bool
  | .idle | .setExit | .lock => true
  | _ => false

/-- When `thrmgr_destroy` takes the mutex, no call is in progress and no worker
has its final post ahead of it; no call starts afterwards. -/
def quietTeardown (system : System Data) : Action Data → Prop
  | .callDispatch _ => system.destroyer.beforeLock = true
  | .destroyer => system.destroyer = .lock →
      callsAt system.dispatchers DispatchPc.inProgress = 0 ∧
        system.workers.countP WorkerPc.posting = 0
  | _ => True

instance (system : System Data) : ∀ action, Decidable (quietTeardown system action)
  | .callDispatch _ => inferInstanceAs (Decidable (system.destroyer.beforeLock = true))
  | .destroyer => inferInstanceAs (Decidable (system.destroyer = .lock → _))
  | .dispatcher _ _ | .worker _ _ => isTrue trivial

@[grind] def DestroyPc.skipping : DestroyPc → Bool
  | .unlock needWait => !needWait
  | .free => true
  | _ => false

structure Quiet (system : System Data) : Prop where
  calls : system.destroyer.beforeLock = false →
    callsAt system.dispatchers DispatchPc.inProgress = 0
  reading : system.destroyer = .readAlive → system.workers.countP WorkerPc.posting = 0
  skipping : system.destroyer.skipping = true → system.workers.countP WorkerPc.unfinished = 0

theorem thrmgrDispatch_inProgress {pool next : Pool Data} {outcome started : Bool}
    {userData : Data} {old new : DispatchPc}
    (moved : thrmgrDispatch pool outcome userData old = some (next, new, started)) :
    old.inProgress = true := by
  cases old <;> grind -ring -linarith

theorem Counters.worker_outside {system : System Data} {index : Nat} {pc : WorkerPc Data}
    (counters : Counters system) (found : system.workers[index]? = some pc)
    (holds : system.destroyer.holdsMutex = true) : pc.holdsMutex = false := by
  by_contra inside
  have mutex := counters.mutex
  have exclusive : system.pool.poolMutex.toNat ≤ 1 := Bool.toNat_le _
  have here := countP_pos_of_found WorkerPc.holdsMutex found (Bool.not_eq_false _ ▸ inside)
  rw [holds] at mutex
  simp only [Bool.toNat_true] at mutex
  omega

theorem Quiet.workerMove {system : System Data} {index : Nat} {outcome : Bool}
    {old new : WorkerPc Data} {pool : Pool Data} (quiet : Quiet system)
    (counters : Counters system) (found : system.workers[index]? = some old)
    (moved : thrmgrWorker system.pool outcome old = some (pool, new)) :
    Quiet { system with pool := pool, workers := system.workers.set index new } := by
  obtain ⟨unfinished, change⟩ := thrmgrWorker_teardown moved
  refine ⟨quiet.calls, ?_, ?_⟩
  · intro reading
    dsimp only at reading ⊢
    have none := quiet.reading reading
    have outside := counters.worker_outside found (by rw [reading]; rfl)
    have posting := countP_set_balance WorkerPc.posting found new
    rcases change with ⟨rfl, _, _⟩ | ⟨rfl, _, _⟩ | ⟨_, _, _, balanced, _, posted, _⟩
    · simp [WorkerPc.holdsMutex] at outside
    · simp [WorkerPc.holdsMutex] at outside
    · omega
  · intro skipping
    have none := quiet.skipping skipping
    have here := countP_pos_of_found WorkerPc.unfinished found unfinished
    omega

theorem Quiet.dispatcherMove {system : System Data} {index : Nat} {outcome started : Bool}
    {call : Dispatcher Data} {pc : DispatchPc} {pool : Pool Data} (quiet : Quiet system)
    (found : system.dispatchers[index]? = some call)
    (moved : thrmgrDispatch system.pool outcome call.userData call.pc = some (pool, pc, started)) :
    Quiet { system with
      pool := pool
      dispatchers := system.dispatchers.set index { call with pc := pc }
      workers := if started then system.workers ++ [.loopTest] else system.workers } := by
  -- a call in progress: `thrmgr_destroy` does not have the mutex yet
  have early : system.destroyer.beforeLock = true := by
    by_contra late
    have running := callsAt_pos found (thrmgrDispatch_inProgress moved)
    have none := quiet.calls (Bool.eq_false_iff.mpr late)
    omega
  refine ⟨fun late => ?_, fun reading => ?_, fun skipping => ?_⟩
  · exact absurd (early.symm.trans late) (by decide)
  · dsimp only at reading
    rw [reading] at early
    contradiction
  · cases stage : system.destroyer <;> simp_all [DestroyPc.beforeLock, DestroyPc.skipping]

theorem Counters.all_finished {system : System Data} (counters : Counters system)
    (reading : system.destroyer = .readAlive) (nobody : ¬ 0 < system.pool.thrAlive)
    (unsignalled : system.workers.countP WorkerPc.posting = 0) :
    system.workers.countP WorkerPc.unfinished = 0 := by
  have mutex := counters.mutex
  have alive := counters.alive
  have nonneg := counters.nonneg
  have exclusive : system.pool.poolMutex.toNat ≤ 1 := Bool.toNat_le _
  have spawners := callsAt_mono DispatchPc.holdsMutex_of_spawned system.dispatchers
  have unfinished := countP_le_add WorkerPc.unfinished_covered system.workers
  have either : system.workers.countP (fun pc => pc.holdsMutex || pc.posting) ≤ _ :=
    countP_le_add (fun _ here => by simpa using here) system.workers
  simp only [reading, DestroyPc.holdsMutex, Bool.toNat_true] at mutex
  omega

theorem LastSignal.all_finished {system : System Data} (signal : LastSignal system)
    (waiting : system.destroyer = .waitLast) (token : 0 < system.pool.poolSem) :
    system.workers.countP WorkerPc.unfinished = 0 := by
  -- A token of pool_sem was posted by the last worker, and that post was its last step.
  have once := signal.once
  have posted := signal.sem (by rw [waiting]; rfl)
  have last := (signal.last (by omega)).1
  omega

theorem Quiet.destroyerMove {system : System Data} {pool : Pool Data} {new : DestroyPc}
    (quiet : Quiet system) (staged : Staged system) (counters : Counters system)
    (signal : LastSignal system) (permitted : quietTeardown system .destroyer)
    (moved : thrmgrDestroy system.pool system.destroyer = some (pool, new)) :
    Quiet { system with pool := pool, destroyer := new } := by
  obtain ⟨calls, reading, skipping⟩ := quiet
  unfold Staged at staged
  simp only [quietTeardown] at permitted
  cases stage : system.destroyer with
  | readAlive =>
      have finished := counters.all_finished stage
      constructor <;> grind -ring -linarith
  | waitLast =>
      have finished := signal.all_finished stage
      constructor <;> grind -ring -linarith
  | signal existed => cases existed <;> constructor <;> grind -ring -linarith
  | unlock needWait => cases needWait <;> constructor <;> grind -ring -linarith
  | _ => constructor <;> grind -ring -linarith

theorem quiet_reachable {system : System Data}
    (reached : Reachable step Created quietTeardown system) : Quiet system := by
  refine reached.invariant Quiet (fun system created => ?_) ?_
  · constructor <;> simp [created.fresh.destroyer, DestroyPc.beforeLock, DestroyPc.skipping]
  · intro system action next before quiet permitted taken
    cases step_move taken with
    | call userData =>
        refine ⟨fun late => ?_, quiet.reading, quiet.skipping⟩
        exact absurd (permitted.symm.trans late) (by decide)
    | dispatcher found moved => exact quiet.dispatcherMove found moved
    | worker found moved => exact quiet.workerMove (counters_reachable before) found moved
    | destroyer moved =>
        exact quiet.destroyerMove (staged_reachable before) (counters_reachable before)
          (lastSignal_reachable before) permitted moved

/-- In every run whose steps keep the teardown quiet, `thrmgr_destroy` frees the
pool only after every worker and every call is done with it. -/
theorem destroy_frees_quiescent_pool {system : System Data}
    (reached : Reachable step Created quietTeardown system) : QuiescentAtFree system := by
  intro freeing
  have quiet := quiet_reachable reached
  have finished := countP_eq_zero_iff_none.mp
    (quiet.skipping (by rw [freeing]; rfl))
  have returned := countP_eq_zero_iff_none.mp (quiet.calls (by rw [freeing]; rfl))
  refine ⟨fun pc member => ?_, returned⟩
  have gone := finished pc member
  cases pc <;> simp_all [WorkerPc.unfinished]

def destroyFrees : List (Action Nat) :=
  destroyWaits ++ List.replicate 8 (.worker 0 true) ++ [.destroyer]

theorem destroy_frees_quiescent_pool_destroyFrees :
    ∃ system, run step (startedPool 300 30000) destroyFrees = some system ∧
      system.destroyer = .free ∧ system.workers.length = 1 ∧
      ∀ pc ∈ system.workers, pc = .finished := by
  have reached : Reachable step Created quietTeardown
      ((run step (startedPool 300 30000) destroyFrees).get (by decide)) :=
    .of_run (startedPool_created (by decide)) (by decide) (by decide)
  exact ⟨(run step (startedPool 300 30000) destroyFrees).get (by decide),
    (Option.some_get _).symm, by decide, by decide,
    (destroy_frees_quiescent_pool reached (by decide)).1⟩

/-- The only worker times out, `thrmgr_destroy` stores `POOL_EXIT`, the worker
decrements `thr_alive` to 0 and decides to signal; `thrmgr_destroy` then reads
`thr_alive = 0` and frees the pool without waiting. -/
def destroyOvertakes : List (Action Nat) :=
  .callDispatch 7 :: List.replicate 8 (.dispatcher 0 true) ++ List.replicate 11 (.worker 0 true) ++
    List.replicate 3 (.worker 0 false) ++ List.replicate 2 .destroyer ++
    List.replicate 4 (.worker 0 false) ++ List.replicate 3 .destroyer

theorem destroyOvertakes_frees_too_early :
    ¬ ∀ system : System Nat, Reachable step Created anyAction system → QuiescentAtFree system := by
  intro always
  have reached : Reachable step Created anyAction
      ((run step (startedPool 300 30000) destroyOvertakes).get (by decide)) :=
    .of_run (startedPool_created (by decide)) (permitted_anyAction _ _ _) (by decide)
  have quiescent := (always _ reached (by decide)).1
  revert quiescent
  decide

end DcCluster.ThreadPool
