import DcCluster.Lib.Transition

/-!
The thread pool of `swartz_thrmgr.cpp` as a transition system. Each thread of
the pool (a `thrmgr_dispatch` call, a `thrmgr_worker` thread, the
`thrmgr_destroy` call) is a program counter, and one step performs one access to
the shared `threadpool_t`: one mutex or semaphore operation, one atomic update of
`thr_idle`, or one unsynchronised read or write. The work queue is the list of
its `user_data`; `item_count` is its length.
-/

namespace DcCluster.ThreadPool

variable {Data : Type}

def swartzInfinite : Int := -1

inductive PoolState
  | valid
  | exit
  deriving DecidableEq, Repr

/-- `threadpool_t`. A semaphore is its count and the mutex tells whether it is
locked. The last four fields are histories that no branch reads: the data added,
popped and passed to `handler`, and the number of posts of `pool_sem`. -/
structure Pool (Data : Type) where
  thrStacksize : Int
  state : PoolState
  thrMax : Int
  thrAlive : Int
  thrIdle : Int
  idleTimeout : Int
  poolSem : Nat
  poolSigSem : Nat
  poolMutex : Bool
  queue : List Data
  added : List Data
  popped : List Data
  handled : List Data
  poolSemPosts : Nat
  deriving DecidableEq, Repr

@[grind] def swartzMutexLock (pool : Pool Data) : Option (Pool Data) :=
  if pool.poolMutex then none else some { pool with poolMutex := true }

@[grind] def swartzMutexUnlock (pool : Pool Data) : Pool Data := { pool with poolMutex := false }

@[grind] def workQueueAdd (pool : Pool Data) (data : Data) : Pool Data :=
  { pool with queue := pool.queue ++ [data], added := pool.added ++ [data] }

@[grind] def workQueuePop (pool : Pool Data) : Pool Data × Option Data :=
  match pool.queue with
  | [] => (pool, none)
  | data :: rest => ({ pool with queue := rest, popped := pool.popped ++ [data] }, some data)

/-- The two allocations may fail. What `swartz_mutex_create` and the two `swartz_sem_create`
return is not looked at; they are taken to succeed. -/
def thrmgrNew (Data : Type) (maxThreads idleTimeout : Int) (handlerGiven : Bool) (stackSize : Int)
    (poolAllocated queueAllocated : Bool) : Option (Pool Data) :=
  if stackSize < 0 ∨ maxThreads ≤ 0 ∨ handlerGiven = false then none
  else if poolAllocated = false then none
  else if queueAllocated = false then none
  else some {
    thrStacksize :=
      if stackSize = 0 then 1024 * 1024
      else if stackSize < 256 * 1024 then 256 * 1024
      else stackSize
    state := .valid
    thrMax := maxThreads
    thrAlive := 0
    thrIdle := 0
    idleTimeout := idleTimeout
    poolSem := 0
    poolSigSem := 0
    poolMutex := false
    queue := []
    added := []
    popped := []
    handled := []
    poolSemPosts := 0
  }

/-- The statements of `thrmgr_worker`. `retval` is `true` for `SWARTZ_OK`. -/
inductive WorkerPc (Data : Type)
  | loopTest
  | incIdle
  | semWait
  | decIdle (retval : Bool)
  | exitTest (retval : Bool)
  | lockPop
  | pop
  | unlockPop (job : Option Data)
  | handler (job : Data)
  | lockExit
  | decAlive
  | lastTest
  | unlockExit (signal : Bool)
  | postLast
  | finished
  deriving DecidableEq, Repr

/-- `swartz_sem_wait` on `pool_sig_sem`: it takes a token, or it times out while
there is none. It never times out with an infinite timeout. -/
@[grind] def waitSignal (pool : Pool Data) (token : Bool) : Option (Pool Data × WorkerPc Data) :=
  if token then
    if 0 < pool.poolSigSem then
      some ({ pool with poolSigSem := pool.poolSigSem - 1 }, .decIdle true)
    else none
  else if pool.poolSigSem = 0 ∧ pool.idleTimeout ≠ swartzInfinite then some (pool, .decIdle false)
  else none

/-- One step of `thrmgr_worker`. `outcome` only matters at the semaphore wait. -/
@[grind] def thrmgrWorker (pool : Pool Data) (outcome : Bool) :
    WorkerPc Data → Option (Pool Data × WorkerPc Data)
  | .loopTest => some (pool, if pool.state ≠ .exit then .incIdle else .lockExit)
  | .incIdle => some ({ pool with thrIdle := pool.thrIdle + 1 }, .semWait)
  | .semWait => waitSignal pool outcome
  | .decIdle retval => some ({ pool with thrIdle := pool.thrIdle - 1 }, .exitTest retval)
  | .exitTest retval =>
      some (pool, if retval = false ∨ pool.state = .exit then .lockExit else .lockPop)
  | .lockPop => (swartzMutexLock pool).map fun locked => (locked, .pop)
  | .pop => some ((workQueuePop pool).1, .unlockPop (workQueuePop pool).2)
  | .unlockPop none => some (swartzMutexUnlock pool, .loopTest)
  | .unlockPop (some job) =>
      some ({ swartzMutexUnlock pool with handled := pool.handled ++ [job] }, .handler job)
  | .handler _ => some (pool, .loopTest)
  | .lockExit => (swartzMutexLock pool).map fun locked => (locked, .decAlive)
  | .decAlive => some ({ pool with thrAlive := pool.thrAlive - 1 }, .lastTest)
  | .lastTest => some (pool, .unlockExit (pool.thrAlive = 0 ∧ pool.state = .exit))
  | .unlockExit signal =>
      some (swartzMutexUnlock pool, if signal then .postLast else .finished)
  | .postLast =>
      some ({ pool with poolSem := pool.poolSem + 1, poolSemPosts := pool.poolSemPosts + 1 },
        .finished)
  | .finished => none

/-- The statements of `thrmgr_dispatch`. A refusal remembers whether the item had
already been added to the queue. -/
inductive DispatchPc
  | lock
  | stateTest
  | add
  | idleTest
  | create
  | incAlive
  | unlock
  | post
  | refuse (added : Bool)
  | returned (result added : Bool)
  deriving DecidableEq, Repr

structure Dispatcher (Data : Type) where
  userData : Data
  pc : DispatchPc
  deriving DecidableEq, Repr

/-- One step of `thrmgr_dispatch`. `outcome` tells whether the allocation of
`work_queue_add` or the thread creation succeeds; the last component tells
whether a worker thread was started. -/
@[grind] def thrmgrDispatch (pool : Pool Data) (outcome : Bool) (userData : Data) :
    DispatchPc → Option (Pool Data × DispatchPc × Bool)
  | .lock => (swartzMutexLock pool).map fun locked => (locked, .stateTest, false)
  | .stateTest => some (pool, if pool.state ≠ .valid then .refuse false else .add, false)
  | .add =>
      if outcome then some (workQueueAdd pool userData, .idleTest, false)
      else some (pool, .refuse false, false)
  | .idleTest =>
      some (pool, if pool.thrIdle = 0 ∧ pool.thrAlive < pool.thrMax then .create else .unlock, false)
  | .create =>
      if outcome then some (pool, .incAlive, true)
      else some (pool, if pool.thrAlive = 0 then .refuse true else .unlock, false)
  | .incAlive => some ({ pool with thrAlive := pool.thrAlive + 1 }, .unlock, false)
  | .unlock => some (swartzMutexUnlock pool, .post, false)
  | .post => some ({ pool with poolSigSem := pool.poolSigSem + 1 }, .returned true true, false)
  | .refuse added => some (swartzMutexUnlock pool, .returned false added, false)
  | .returned _ _ => none

/-- The statements of `thrmgr_destroy`. `signal existed` is the posting loop with
`existed` posts to go; after `free` the pool is gone. -/
inductive DestroyPc
  | idle
  | setExit
  | lock
  | readAlive
  | signal (existed : Nat)
  | unlock (needWait : Bool)
  | waitLast
  | free
  | returned
  deriving DecidableEq, Repr

/-- One step of `thrmgr_destroy`; its first step is the call. The model keeps the
fields of the pool after `free`, so that a late access by another thread stays
visible as a step of that thread. -/
@[grind] def thrmgrDestroy (pool : Pool Data) : DestroyPc → Option (Pool Data × DestroyPc)
  | .idle => some (pool, if pool.state ≠ .valid then .returned else .setExit)
  | .setExit => some ({ pool with state := .exit }, .lock)
  | .lock => (swartzMutexLock pool).map fun locked => (locked, .readAlive)
  | .readAlive =>
      some (pool, if 0 < pool.thrAlive then .signal pool.thrAlive.toNat else .unlock false)
  | .signal 0 => some (pool, .unlock true)
  | .signal (existed + 1) =>
      some ({ pool with poolSigSem := pool.poolSigSem + 1 }, .signal existed)
  | .unlock needWait => some (swartzMutexUnlock pool, if needWait then .waitLast else .free)
  | .waitLast =>
      if 0 < pool.poolSem then some ({ pool with poolSem := pool.poolSem - 1 }, .free) else none
  | .free => some (pool, .returned)
  | .returned => none

structure System (Data : Type) where
  pool : Pool Data
  dispatchers : List (Dispatcher Data)
  workers : List (WorkerPc Data)
  destroyer : DestroyPc
  deriving DecidableEq, Repr

inductive Action (Data : Type)
  | callDispatch (userData : Data)
  | dispatcher (index : Nat) (outcome : Bool)
  | worker (index : Nat) (outcome : Bool)
  | destroyer
  deriving DecidableEq, Repr

def stepDispatcher (system : System Data) (index : Nat) (outcome : Bool) : Option (System Data) :=
  match system.dispatchers[index]? with
  | none => none
  | some call =>
      (thrmgrDispatch system.pool outcome call.userData call.pc).map fun (pool, pc, started) =>
        { system with
          pool := pool
          dispatchers := system.dispatchers.set index { call with pc := pc }
          workers := if started then system.workers ++ [.loopTest] else system.workers }

def stepWorker (system : System Data) (index : Nat) (outcome : Bool) : Option (System Data) :=
  match system.workers[index]? with
  | none => none
  | some pc =>
      (thrmgrWorker system.pool outcome pc).map fun (pool, next) =>
        { system with pool := pool, workers := system.workers.set index next }

def stepDestroyer (system : System Data) : Option (System Data) :=
  (thrmgrDestroy system.pool system.destroyer).map fun (pool, next) =>
    { system with pool := pool, destroyer := next }

def step (system : System Data) : Action Data → Option (System Data)
  | .callDispatch userData =>
      some { system with dispatchers := system.dispatchers ++ [⟨userData, .lock⟩] }
  | .dispatcher index outcome => stepDispatcher system index outcome
  | .worker index outcome => stepWorker system index outcome
  | .destroyer => stepDestroyer system

def Created (system : System Data) : Prop :=
  ∃ maxThreads idleTimeout stackSize, ∃ pool : Pool Data,
    thrmgrNew Data maxThreads idleTimeout true stackSize true true = some pool ∧
      system = { pool := pool, dispatchers := [], workers := [], destroyer := .idle }

end DcCluster.ThreadPool
