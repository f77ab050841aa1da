import DcCluster.Utils.ThreadPool

/-!
Jobs and tokens of the pool. Every job added to the queue is popped once, in
order, and handed to the handler by the worker that popped it. While the pool is
valid, each queued job is matched by a token: one in `pool_sig_sem`, one that its
dispatcher still has to post, or one that a worker took and has not yet used.
-/

namespace DcCluster.ThreadPool

open DcCluster.Lib

variable {Data : Type}

@[grind] def WorkerPc.hasToken : WorkerPc Data → Bool
  | .decIdle retval | .exitTest retval => retval
  | .lockPop | .pop => true
  | _ => false

@[grind] def WorkerPc.heldJob : WorkerPc Data → Option Data
  | .unlockPop job => job
  | _ => none

@[grind] def DispatchPc.addedInside : DispatchPc → Bool
  | .idleTest | .create | .incAlive | .unlock => true
  | .refuse added => added
  | _ => false

@[grind] def DispatchPc.beforePost : DispatchPc → Bool
  | .post => true
  | _ => false

@[grind] def DispatchPc.refusedAfterAdd : DispatchPc → Bool
  | .returned result added => !result && added
  | _ => false

theorem DispatchPc.holdsMutex_of_addedInside (pc : DispatchPc) (inside : pc.addedInside = true) :
    pc.holdsMutex = true := by
  cases pc <;> simp_all [DispatchPc.addedInside, DispatchPc.holdsMutex]

structure Ledger (system : System Data) : Prop where
  fifo : system.pool.added = system.pool.popped ++ system.pool.queue
  handed : system.pool.popped.Perm
    (system.pool.handled ++ system.workers.filterMap WorkerPc.heldJob)
  tokens : system.pool.state = .valid → system.pool.queue.length =
    system.pool.poolSigSem + callsAt system.dispatchers DispatchPc.beforePost +
      callsAt system.dispatchers DispatchPc.addedInside +
      callsAt system.dispatchers DispatchPc.refusedAfterAdd +
      system.workers.countP WorkerPc.hasToken

theorem thrmgrWorker_fifo {pool next : Pool Data} {outcome : Bool} {old new : WorkerPc Data}
    (moved : thrmgrWorker pool outcome old = some (next, new))
    (fifo : pool.added = pool.popped ++ pool.queue) :
    next.added = next.popped ++ next.queue := by
  cases old with
  | unlockPop job => cases job <;> grind -ring -linarith
  | _ => grind -ring -linarith

theorem thrmgrWorker_handed {pool next : Pool Data} {outcome : Bool} {old new : WorkerPc Data}
    (moved : thrmgrWorker pool outcome old = some (next, new)) :
    ∃ justPopped justHandled, next.popped = pool.popped ++ justPopped ∧
      next.handled = pool.handled ++ justHandled ∧
      old.heldJob.toList ++ justPopped = new.heldJob.toList ++ justHandled := by
  cases old with
  | pop =>
      simp only [thrmgrWorker, Option.some.injEq, Prod.mk.injEq] at moved
      obtain ⟨rfl, rfl⟩ := moved
      refine ⟨(workQueuePop pool).2.toList, [], ?_, ?_, by simp [WorkerPc.heldJob]⟩
      all_goals simp only [workQueuePop]; split <;> simp
  | unlockPop job =>
      refine ⟨[], job.toList, ?_, ?_, ?_⟩ <;> cases job <;> grind -ring -linarith
  | _ => exact ⟨[], [], by grind -ring -linarith, by grind -ring -linarith, by grind⟩

theorem thrmgrWorker_tokens {pool next : Pool Data} {outcome : Bool} {old new : WorkerPc Data}
    (moved : thrmgrWorker pool outcome old = some (next, new)) (valid : pool.state = .valid)
    (found : old = .pop → pool.queue ≠ []) :
    next.queue.length + pool.poolSigSem + old.hasToken.toNat =
      pool.queue.length + next.poolSigSem + new.hasToken.toNat := by
  cases old with
  | unlockPop job => cases job <;> grind -ring -linarith
  | _ => grind -ring -linarith

theorem thrmgrDispatch_ledger {pool next : Pool Data} {outcome started : Bool} {userData : Data}
    {old new : DispatchPc}
    (moved : thrmgrDispatch pool outcome userData old = some (next, new, started))
    (fifo : pool.added = pool.popped ++ pool.queue) :
    next.added = next.popped ++ next.queue ∧ next.popped = pool.popped ∧
      next.handled = pool.handled ∧
      next.queue.length + pool.poolSigSem + old.beforePost.toNat + old.addedInside.toNat +
          old.refusedAfterAdd.toNat =
        pool.queue.length + next.poolSigSem + new.beforePost.toNat + new.addedInside.toNat +
          new.refusedAfterAdd.toNat := by
  cases old with
  | refuse added => cases added <;> grind -ring -linarith
  | _ => grind -ring -linarith

theorem thrmgrDestroy_ledger {pool next : Pool Data} {old new : DestroyPc}
    (moved : thrmgrDestroy pool old = some (next, new)) :
    next.added = pool.added ∧ next.popped = pool.popped ∧ next.handled = pool.handled ∧
      next.queue = pool.queue ∧ (next.state = .valid → pool.state = .valid) ∧
      (old.beforeExit = true → next.poolSigSem = pool.poolSigSem) := by
  cases old with
  | signal existed => cases existed <;> grind -ring -linarith
  | _ => grind -ring -linarith

theorem Ledger.created {system : System Data} (created : Created system) : Ledger system := by
  have fresh := created.fresh
  refine ⟨?_, ?_, ?_⟩
  · simp [fresh.added, fresh.popped, fresh.queue]
  · simp [fresh.popped, fresh.handled, fresh.workers]
  · simp [fresh.queue, fresh.poolSigSem, fresh.dispatchers, fresh.workers, callsAt]

theorem Ledger.pop_finds_job {system : System Data} {index : Nat} (ledger : Ledger system)
    (valid : system.pool.state = .valid) (found : system.workers[index]? = some .pop) :
    system.pool.queue ≠ [] := by
  -- A worker that is about to pop holds a token, so some queued job is matched by it.
  have tokens := ledger.tokens valid
  have here : 0 < system.workers.countP WorkerPc.hasToken := countP_pos_of_found _ found rfl
  intro empty
  simp only [empty, List.length_nil] at tokens
  omega

theorem Ledger.workerMove {system : System Data} {index : Nat} {outcome : Bool}
    {old new : WorkerPc Data} {pool : Pool Data} (ledger : Ledger system)
    (found : system.workers[index]? = some old)
    (moved : thrmgrWorker system.pool outcome old = some (pool, new)) :
    Ledger { system with pool := pool, workers := system.workers.set index new } := by
  classical
  refine ⟨thrmgrWorker_fifo moved ledger.fifo, ?_, ?_⟩
  · obtain ⟨justPopped, justHandled, popped, handled, exchanged⟩ := thrmgrWorker_handed moved
    have handed := ledger.handed
    have held := filterMap_set_perm WorkerPc.heldJob found new
    rw [List.perm_iff_count] at handed held ⊢
    intro job
    have balance := congrArg (List.count job) exchanged
    have before := handed job
    have shift := held job
    simp only [popped, handled, List.count_append] at before shift balance ⊢
    omega
  · intro valid
    rw [thrmgrWorker_state moved] at valid
    have tokens := ledger.tokens valid
    have change := thrmgrWorker_tokens moved valid
      (fun atPop => ledger.pop_finds_job valid (atPop ▸ found))
    have shift := countP_set_balance WorkerPc.hasToken found new
    dsimp only
    omega

theorem Ledger.dispatcherMove {system : System Data} {index : Nat} {outcome started : Bool}
    {call : Dispatcher Data} {pc : DispatchPc} {pool : Pool Data} (ledger : Ledger system)
    (found : system.dispatchers[index]? = some call)
    (moved : thrmgrDispatch system.pool outcome call.userData call.pc = some (pool, pc, started)) :
    Ledger { system with
      pool := pool
      dispatchers := system.dispatchers.set index { call with pc := pc }
      workers := if started then system.workers ++ [.loopTest] else system.workers } := by
  obtain ⟨fifo, popped, handled, change⟩ := thrmgrDispatch_ledger moved ledger.fifo
  refine ⟨fifo, ?_, ?_⟩
  · have unheld : (if started then system.workers ++ [.loopTest] else system.workers).filterMap
        WorkerPc.heldJob = system.workers.filterMap WorkerPc.heldJob := by
      cases started <;> simp [WorkerPc.heldJob]
    simpa only [popped, handled, unheld] using ledger.handed
  · intro valid
    have tokens := ledger.tokens (thrmgrDispatch_state moved ▸ valid)
    have posting := callsAt_set found pc DispatchPc.beforePost
    have inside := callsAt_set found pc DispatchPc.addedInside
    have refused := callsAt_set found pc DispatchPc.refusedAfterAdd
    simp only [workersAt_started, WorkerPc.hasToken, Bool.and_false, Bool.toNat_false]
    omega

theorem Ledger.move {system next : System Data} {action : Action Data} (ledger : Ledger system)
    (staged : Staged system) (moved : Move system action next) : Ledger next := by
  cases moved with
  | call userData =>
      refine ⟨ledger.fifo, ledger.handed, ?_⟩
      simpa [callsAt_append, DispatchPc.beforePost, DispatchPc.addedInside,
        DispatchPc.refusedAfterAdd] using ledger.tokens
  | dispatcher found moved => exact ledger.dispatcherMove found moved
  | worker found moved => exact ledger.workerMove found moved
  | destroyer moved =>
      obtain ⟨added, popped, handled, queue, valid, tokens⟩ := thrmgrDestroy_ledger moved
      refine ⟨?_, ?_, fun nowValid => ?_⟩
      · simpa only [added, popped, queue] using ledger.fifo
      · simpa only [popped, handled] using ledger.handed
      · have before := valid nowValid
        simpa only [queue, tokens (staged.mp before)] using ledger.tokens before

theorem ledger_reachable {allowed : System Data → Action Data → Prop} {system : System Data}
    (reached : Reachable step Created allowed system) : Ledger system :=
  reached.invariant Ledger (fun _ created => .created created)
    (fun _ _ _ before ledger _ taken => ledger.move (staged_reachable before) (step_move taken))

/-- No call returns `SWARTZ_FALSE` after its `work_queue_add` succeeded. -/
def keepsAccepted (system : System Data) : Action Data → Prop
  | .dispatcher index _ =>
      ∀ call ∈ system.dispatchers[index]?, call.pc ≠ .refuse true
  | _ => True

instance (system : System Data) : ∀ action, Decidable (keepsAccepted system action)
  | .dispatcher index _ =>
      inferInstanceAs (Decidable (∀ call ∈ system.dispatchers[index]?, call.pc ≠ .refuse true))
  | .callDispatch _ | .worker _ _ | .destroyer => isTrue trivial

theorem thrmgrDispatch_refused {pool next : Pool Data} {outcome started : Bool} {userData : Data}
    {old new : DispatchPc}
    (moved : thrmgrDispatch pool outcome userData old = some (next, new, started))
    (accepted : old ≠ .refuse true) : new.refusedAfterAdd = false := by
  cases old with
  | refuse added => cases added <;> grind -ring -linarith
  | _ => grind -ring -linarith

theorem refusedAfterAdd_zero {system : System Data}
    (reached : Reachable step Created keepsAccepted system) :
    callsAt system.dispatchers DispatchPc.refusedAfterAdd = 0 := by
  refine reached.invariant
    (fun system => callsAt system.dispatchers DispatchPc.refusedAfterAdd = 0)
    (fun system created => by simp [created.fresh.dispatchers, callsAt]) ?_
  intro system action next _ none permitted taken
  cases step_move taken with
  | call userData => simpa [callsAt_append, DispatchPc.refusedAfterAdd] using none
  | @dispatcher index outcome call pool pc started found moved =>
      have kept := thrmgrDispatch_refused moved (permitted call found)
      have shift := callsAt_set found pc DispatchPc.refusedAfterAdd
      simp only [kept, Bool.toNat_false] at shift
      dsimp only
      omega
  | worker found moved => exact none
  | destroyer moved => exact none

theorem Counters.no_addedInside {system : System Data} (counters : Counters system)
    (free : system.pool.poolMutex = false) :
    callsAt system.dispatchers DispatchPc.addedInside = 0 := by
  have mutex := counters.mutex
  have inside := callsAt_mono DispatchPc.holdsMutex_of_addedInside system.dispatchers
  simp only [free, Bool.toNat_false] at mutex
  omega

/-- Jobs and tokens are conserved in every valid state of every run in which no
refused call leaves its job behind. Inside a critical section the queue may be
one job ahead, by the call that has added its job and still holds the mutex. -/
theorem jobs_and_tokens_conserved {system : System Data}
    (reached : Reachable step Created keepsAccepted system)
    (valid : system.pool.state = .valid) :
    system.pool.added = system.pool.popped ++ system.pool.queue ∧
    system.pool.popped.Perm (system.pool.handled ++ system.workers.filterMap WorkerPc.heldJob) ∧
    system.pool.queue.length =
      system.pool.poolSigSem + callsAt system.dispatchers DispatchPc.beforePost +
        callsAt system.dispatchers DispatchPc.addedInside +
        system.workers.countP WorkerPc.hasToken ∧
    (system.pool.poolMutex = false → system.pool.queue.length =
      system.pool.poolSigSem + callsAt system.dispatchers DispatchPc.beforePost +
        system.workers.countP WorkerPc.hasToken) ∧
    ∀ index : Nat, system.workers[index]? = some .pop → (workQueuePop system.pool).2.isSome = true := by
  have ledger := ledger_reachable reached
  have tokens := ledger.tokens valid
  have unrefused := refusedAfterAdd_zero reached
  refine ⟨ledger.fifo, ledger.handed, by omega, ?_, ?_⟩
  · intro free
    have inside := (counters_reachable reached).no_addedInside free
    omega
  · intro index found
    have nonempty := ledger.pop_finds_job valid found
    unfold workQueuePop
    split
    · contradiction
    · rfl

def firstJob : List (Action Nat) :=
  .callDispatch 7 :: List.replicate 8 (.dispatcher 0 true) ++ List.replicate 6 (.worker 0 true)

theorem jobs_and_tokens_conserved_firstJob :
    ∃ system, run step (startedPool 1 30000) firstJob = some system ∧
      system.pool.state = .valid ∧ system.workers[0]? = some .pop ∧
      (workQueuePop system.pool).2.isSome = true := by
  refine ⟨(run step (startedPool 1 30000) firstJob).get (by decide), (Option.some_get _).symm,
    by decide, by decide, ?_⟩
  have reached : Reachable step Created keepsAccepted
      ((run step (startedPool 1 30000) firstJob).get (by decide)) :=
    .of_run (startedPool_created (by decide)) (by decide) (by decide)
  exact (jobs_and_tokens_conserved reached (by decide)).2.2.2.2 0 (by decide)

end DcCluster.ThreadPool
