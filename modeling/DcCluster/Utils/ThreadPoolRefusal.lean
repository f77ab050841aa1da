import DcCluster.Utils.ThreadPoolSpawn

/-!
What a refused `thrmgr_dispatch` leaves behind. The call that returns
`SWARTZ_FALSE` because the pool is exiting, or because `work_queue_add` failed,
could as well not have been made: without its steps the other threads run as
before to the same pool. The refusal after `swartz_thread_detached_create` has
failed keeps the item it has linked into the queue.
-/

namespace DcCluster.ThreadPool

open DcCluster.Lib

variable {Data : Type}

@[grind] def DispatchPc.tookJob : DispatchPc → Bool
  | .idleTest | .create | .incAlive | .unlock | .post => true
  | .refuse added | .returned _ added => added
  | .lock | .stateTest | .add => false

/-- The call has its job in the queue and has not refused it. -/
@[grind] def DispatchPc.accepting : DispatchPc → Bool
  | .idleTest | .create | .incAlive | .unlock | .post | .returned true _ => true
  | _ => false

def called (system : System Data) (userData : Data) : System Data :=
  { system with dispatchers := system.dispatchers ++ [⟨userData, .lock⟩] }

def otherThan (index : Nat) : Action Data → Bool
  | .dispatcher caller _ => caller != index
  | _ => true

@[grind] def unlockedBy (held : Bool) (pool : Pool Data) : Pool Data :=
  { pool with poolMutex := pool.poolMutex && !held }

/-- The system in which the call has not taken a step yet. -/
def withoutCall (index : Nat) (call : Dispatcher Data) (system : System Data) : System Data :=
  { system with
    pool := unlockedBy call.pc.holdsMutex system.pool
    dispatchers := system.dispatchers.set index { call with pc := .lock } }

/-- If the call finds no worker alive and tries to start the first one, this succeeds. -/
def startsFirstThread (index : Nat) (system : System Data) : Action Data → Prop
  | .dispatcher caller outcome => caller = index →
      ∀ call ∈ system.dispatchers[index]?, call.pc = .create → system.pool.thrAlive = 0 →
        outcome = true
  | _ => True

instance (index : Nat) (system : System Data) :
    ∀ action, Decidable (startsFirstThread index system action)
  | .dispatcher caller outcome => inferInstanceAs (Decidable (caller = index →
      ∀ call ∈ system.dispatchers[index]?, call.pc = .create → system.pool.thrAlive = 0 →
        outcome = true))
  | .callDispatch _ | .worker _ _ | .destroyer => isTrue trivial

/-- A refused call has no effect, after a run from its start with any other threads:
`erased`, without its steps the run ends in the same pool; `alone`, if nobody else
moved, the pool is as before the call; `unhandled`, its data reaches the handler only
as often as other calls brought it; `tokens`, the queue is still as long as there are
tokens for it, if no other call spoils this. -/
structure RefusedWithoutEffect [DecidableEq Data] (index : Nat) (userData : Data)
    (before : System Data) (actions : List (Action Data)) (final : System Data) : Prop where
  erased : run step before (actions.filter (otherThan index)) =
    some { final with dispatchers := final.dispatchers.set index ⟨userData, .lock⟩ }
  alone : (∀ action ∈ actions, otherThan index action = false) → final.pool = before.pool
  unhandled : final.pool.handled.count userData ≤
    (final.dispatchers.eraseIdx index).countP fun call =>
      call.userData = userData ∧ call.pc.tookJob = true
  tokens : final.pool.state = .valid →
    callsAt (final.dispatchers.eraseIdx index) DispatchPc.refusedAfterAdd = 0 →
      final.pool.queue.length =
        final.pool.poolSigSem + callsAt final.dispatchers DispatchPc.beforePost +
          callsAt final.dispatchers DispatchPc.addedInside +
          final.workers.countP WorkerPc.hasToken

/-! The jobs in the pool's history are the ones of the calls that took theirs there. -/

def JobsOfCalls (system : System Data) : Prop :=
  ∀ mine : Data → Bool, system.pool.added.countP mine =
    system.dispatchers.countP fun call => mine call.userData && call.pc.tookJob

theorem thrmgrDispatch_added {pool next : Pool Data} {outcome started : Bool} {userData : Data}
    {old new : DispatchPc}
    (moved : thrmgrDispatch pool outcome userData old = some (next, new, started)) :
    next.added = pool.added ∧ new.tookJob = old.tookJob ∨
      next.added = pool.added ++ [userData] ∧ new.tookJob = true ∧ old.tookJob = false := by
  cases old <;> grind -ring -linarith

theorem thrmgrWorker_added {pool next : Pool Data} {outcome : Bool} {old new : WorkerPc Data}
    (moved : thrmgrWorker pool outcome old = some (next, new)) : next.added = pool.added := by
  cases old with
  | unlockPop job => cases job <;> grind -ring -linarith
  | _ => grind -ring -linarith

theorem JobsOfCalls.move {system next : System Data} {action : Action Data}
    (jobs : JobsOfCalls system) (moved : Move system action next) : JobsOfCalls next := by
  intro mine
  have before := jobs mine
  cases moved with
  | call userData => simpa [DispatchPc.tookJob] using before
  | @dispatcher index outcome call pool pc started found moved =>
      have shift := countP_set_balance
        (fun call : Dispatcher Data => mine call.userData && call.pc.tookJob) found
        { call with pc := pc }
      rcases thrmgrDispatch_added moved with ⟨added, same⟩ | ⟨added, took, untaken⟩
      · simp only [same] at shift
        dsimp only
        rw [added]
        omega
      · simp only [took, untaken, Bool.and_true, Bool.and_false, Bool.toNat_false] at shift
        dsimp only
        rw [added, List.countP_append, List.countP_singleton]
        cases here : mine call.userData <;> simp only [here, Bool.toNat_true, Bool.toNat_false] at shift
        · simp only [Bool.false_eq_true, ↓reduceIte]
          omega
        · simp only [↓reduceIte]
          omega
  | worker found moved =>
      dsimp only
      rw [thrmgrWorker_added moved]
      exact before
  | destroyer moved =>
      dsimp only
      rw [(thrmgrDestroy_ledger moved).1]
      exact before

theorem jobsOfCalls_reachable {allowed : System Data → Action Data → Prop} {system : System Data}
    (reached : Reachable step Created allowed system) : JobsOfCalls system := by
  refine reached.invariant JobsOfCalls (fun system created mine => ?_)
    (fun _ _ _ _ jobs _ taken => jobs.move (step_move taken))
  simp [created.fresh.added, created.fresh.dispatchers]

/-! A thread that is not the call takes the same step where the call has not started. -/

theorem thrmgrDispatch_unlockedBy {pool next : Pool Data} {outcome started : Bool}
    {userData : Data} {old new : DispatchPc} (held : Bool)
    (moved : thrmgrDispatch pool outcome userData old = some (next, new, started))
    (apart : held = true → pool.poolMutex = true ∧ old.holdsMutex = false) :
    thrmgrDispatch (unlockedBy held pool) outcome userData old =
      some (unlockedBy held next, new, started) := by
  cases held with
  | false => simpa [unlockedBy] using moved
  | true =>
      obtain ⟨locked, outside⟩ := apart rfl
      cases old <;> grind -ring -linarith

theorem thrmgrWorker_unlockedBy {pool next : Pool Data} {outcome : Bool}
    {old new : WorkerPc Data} (held : Bool) (moved : thrmgrWorker pool outcome old = some (next, new))
    (apart : held = true → pool.poolMutex = true ∧ old.holdsMutex = false) :
    thrmgrWorker (unlockedBy held pool) outcome old = some (unlockedBy held next, new) := by
  cases held with
  | false => simpa [unlockedBy] using moved
  | true =>
      obtain ⟨locked, outside⟩ := apart rfl
      cases old <;> grind -ring -linarith

theorem thrmgrDestroy_unlockedBy {pool next : Pool Data} {old new : DestroyPc} (held : Bool)
    (moved : thrmgrDestroy pool old = some (next, new))
    (apart : held = true → pool.poolMutex = true ∧ old.holdsMutex = false) :
    thrmgrDestroy (unlockedBy held pool) old = some (unlockedBy held next, new) := by
  cases held with
  | false => simpa [unlockedBy] using moved
  | true =>
      obtain ⟨locked, outside⟩ := apart rfl
      cases old <;> grind -ring -linarith

/-- The call still stands where it has changed nothing but the mutex, and the
shadow is the system without it. -/
structure Shadow (index : Nat) (userData : Data) (system shadow : System Data) : Prop where
  counters : Counters system
  untaken : ∃ pc, system.dispatchers[index]? = some ⟨userData, pc⟩ ∧ pc.tookJob = false ∧
    pc.accepting = false ∧ shadow = withoutCall index ⟨userData, pc⟩ system

theorem Counters.holder_alone {system : System Data} (counters : Counters system) {index : Nat}
    {call : Dispatcher Data} (found : system.dispatchers[index]? = some call)
    (holds : call.pc.holdsMutex = true) :
    system.pool.poolMutex = true ∧
      (∀ other (second : Dispatcher Data), system.dispatchers[other]? = some second → other ≠ index →
        second.pc.holdsMutex = false) ∧
      (∀ (other : Nat) (pc : WorkerPc Data), system.workers[other]? = some pc → pc.holdsMutex = false) ∧
      system.destroyer.holdsMutex = false := by
  have locked := counters.dispatcherMutex found holds
  have mutex := counters.mutex
  have here := callsAt_pos found holds
  simp only [locked, Bool.toNat_true] at mutex
  refine ⟨locked, fun other second there differs => ?_, fun other pc there => ?_, ?_⟩
  · cases holdsToo : second.pc.holdsMutex with
    | false => rfl
    | true =>
        have single : callsAt system.dispatchers DispatchPc.holdsMutex ≤ 1 := by omega
        exact absurd (eq_of_countP_le_one found single holds there holdsToo) differs
  · cases holdsToo : pc.holdsMutex with
    | false => rfl
    | true =>
        have there : 0 < system.workers.countP WorkerPc.holdsMutex :=
          countP_pos_of_found _ there holdsToo
        omega
  · cases holdsToo : system.destroyer.holdsMutex with
    | false => rfl
    | true =>
        simp only [holdsToo, Bool.toNat_true] at mutex
        omega

theorem Shadow.follows {index : Nat} {userData : Data} {system shadow next : System Data}
    {action : Action Data} (related : Shadow index userData system shadow)
    (other : otherThan index action = true) (taken : step system action = some next) :
    ∃ moved, step shadow action = some moved ∧ Shadow index userData next moved := by
  obtain ⟨counters, pc, found, untaken, unaccepted, rfl⟩ := related
  have inside : index < system.dispatchers.length := (List.getElem?_eq_some_iff.mp found).1
  have alone := counters.holder_alone found
  have later := counters.move (step_move taken)
  cases step_move taken with
  | call data =>
      refine ⟨_, rfl, later, pc, ?_, untaken, unaccepted, ?_⟩
      · simpa only [List.getElem?_append_left inside] using found
      · simp [withoutCall, List.set_append_left _ _ inside]
  | @dispatcher caller outcome call pool newPc started foundCaller moved =>
      have differs : caller ≠ index := by simpa [otherThan] using other
      have copied := thrmgrDispatch_unlockedBy pc.holdsMutex moved
        (fun holds => ⟨(alone holds).1, (alone holds).2.1 _ _ foundCaller differs⟩)
      refine ⟨_, ?_, later, pc, ?_, untaken, unaccepted, rfl⟩
      · simp only [step, stepDispatcher, withoutCall, List.getElem?_set_ne differs.symm,
          foundCaller]
        simp [copied, List.set_comm _ _ differs]
      · simpa only [List.getElem?_set_ne differs] using found
  | @worker slot outcome old new pool foundWorker moved =>
      have copied := thrmgrWorker_unlockedBy pc.holdsMutex moved
        (fun holds => ⟨(alone holds).1, (alone holds).2.2.1 _ _ foundWorker⟩)
      refine ⟨_, ?_, later, pc, found, untaken, unaccepted, rfl⟩
      simp only [step, stepWorker, withoutCall, foundWorker]
      simp [copied]
  | @destroyer pool new moved =>
      have copied := thrmgrDestroy_unlockedBy pc.holdsMutex moved
        (fun holds => ⟨(alone holds).1, (alone holds).2.2.2⟩)
      refine ⟨_, ?_, later, pc, found, untaken, unaccepted, rfl⟩
      simp only [step, stepDestroyer, withoutCall]
      simp [copied]

theorem thrmgrDispatch_untaken {pool next : Pool Data} {outcome started : Bool} {userData : Data}
    {old new : DispatchPc}
    (moved : thrmgrDispatch pool outcome userData old = some (next, new, started))
    (untaken : old.tookJob = false) (unaccepted : old.accepting = false) :
    new.accepting = true ∨ started = false ∧ new.tookJob = false ∧ new.accepting = false ∧
      unlockedBy new.holdsMutex next = unlockedBy old.holdsMutex pool := by
  cases old <;> grind -ring -linarith

theorem thrmgrDispatch_accepting {pool next : Pool Data} {outcome started : Bool}
    {userData : Data} {old new : DispatchPc}
    (moved : thrmgrDispatch pool outcome userData old = some (next, new, started))
    (accepting : old.accepting = true)
    (starts : old = .create → pool.thrAlive = 0 → outcome = true) : new.accepting = true := by
  cases old <;> grind -ring -linarith

theorem Shadow.stays {index : Nat} {userData : Data} {system shadow next : System Data}
    {action : Action Data} (related : Shadow index userData system shadow)
    (own : otherThan index action = false) (taken : step system action = some next) :
    (∃ call, next.dispatchers[index]? = some call ∧ call.pc.accepting = true) ∨
      Shadow index userData next shadow := by
  obtain ⟨counters, pc, found, untaken, unaccepted, rfl⟩ := related
  have inside : index < system.dispatchers.length := (List.getElem?_eq_some_iff.mp found).1
  have later := counters.move (step_move taken)
  cases step_move taken with
  | call data => simp [otherThan] at own
  | @dispatcher caller outcome call pool newPc started foundCaller moved =>
      obtain rfl : caller = index := by simpa [otherThan] using own
      obtain rfl : ⟨userData, pc⟩ = call := by simpa [found] using foundCaller
      have place : (system.dispatchers.set caller ⟨userData, newPc⟩)[caller]? =
          some ⟨userData, newPc⟩ := List.getElem?_set_self inside
      rcases thrmgrDispatch_untaken moved untaken unaccepted with
        accepts | ⟨rfl, stillUntaken, stillUnaccepted, unlocked⟩
      · exact .inl ⟨_, place, accepts⟩
      · refine .inr ⟨later, newPc, place, stillUntaken, stillUnaccepted, ?_⟩
        simp [withoutCall, unlocked]
  | worker _ _ => simp [otherThan] at own
  | destroyer _ => simp [otherThan] at own

/-- What one call has reached stays reached, if its own steps keep it. -/
theorem call_kept {index : Nat} {point : DispatchPc → Bool} {system next : System Data}
    {action : Action Data}
    (reached : ∃ call, system.dispatchers[index]? = some call ∧ point call.pc = true)
    (own : ∀ outcome call pool pc started, action = .dispatcher index outcome →
      system.dispatchers[index]? = some call →
      thrmgrDispatch system.pool outcome call.userData call.pc = some (pool, pc, started) →
        point call.pc = true → point pc = true)
    (taken : step system action = some next) :
    ∃ call, next.dispatchers[index]? = some call ∧ point call.pc = true := by
  obtain ⟨call, found, here⟩ := reached
  have inside : index < system.dispatchers.length := (List.getElem?_eq_some_iff.mp found).1
  cases step_move taken with
  | call data => exact ⟨call, by simpa only [List.getElem?_append_left inside] using found, here⟩
  | @dispatcher caller outcome mover pool newPc started foundCaller moved =>
      by_cases same : caller = index
      · subst same
        obtain rfl : call = mover := by simpa [found] using foundCaller
        refine ⟨_, List.getElem?_set_self inside, ?_⟩
        exact own outcome call pool newPc started rfl found moved here
      · exact ⟨call, by simpa only [List.getElem?_set_ne same] using found, here⟩
  | worker _ _ => exact ⟨call, found, here⟩
  | destroyer _ => exact ⟨call, found, here⟩

theorem accepting_kept {index : Nat} {system next : System Data} {action : Action Data}
    (starts : startsFirstThread index system action)
    (accepting : ∃ call, system.dispatchers[index]? = some call ∧ call.pc.accepting = true)
    (taken : step system action = some next) :
    ∃ call, next.dispatchers[index]? = some call ∧ call.pc.accepting = true := by
  refine call_kept accepting ?_ taken
  rintro outcome call pool pc started rfl found moved accepts
  exact thrmgrDispatch_accepting moved accepts (starts rfl call found)

theorem thrmgrDispatch_lateRefusal {pool next : Pool Data} {outcome started : Bool}
    {userData : Data} {old new : DispatchPc}
    (moved : thrmgrDispatch pool outcome userData old = some (next, new, started))
    (refused : old.lateRefusal = true ∨ old = .create ∧ pool.thrAlive = 0 ∧ outcome = false) :
    new.lateRefusal = true := by
  rcases refused with late | ⟨rfl, nobody, rfl⟩
  · cases old with
    | refuse added =>
        obtain rfl : added = true := late
        simp only [thrmgrDispatch, Option.some.injEq, Prod.mk.injEq] at moved
        obtain ⟨_, rfl, _⟩ := moved
        rfl
    | returned result added => simp [thrmgrDispatch] at moved
    | _ => cases late
  · simp only [thrmgrDispatch, nobody, Bool.false_eq_true, ↓reduceIte, Option.some.injEq,
      Prod.mk.injEq] at moved
    obtain ⟨_, rfl, _⟩ := moved
    rfl

theorem lateRefusal_kept {index : Nat} {system next : System Data} {action : Action Data}
    (refused : ∃ call, system.dispatchers[index]? = some call ∧ call.pc.lateRefusal = true)
    (taken : step system action = some next) :
    ∃ call, next.dispatchers[index]? = some call ∧ call.pc.lateRefusal = true := by
  refine call_kept refused ?_ taken
  intro outcome call pool pc started _ _ moved late
  exact thrmgrDispatch_lateRefusal moved (.inl late)

/-- The failed creation of the first thread is the only way to refuse a job in the queue. -/
theorem startsFirstThread_of_unrefused {index : Nat} {system final : System Data}
    {actions : List (Action Data)} (ran : run step system actions = some final)
    (unrefused : ∀ call ∈ final.dispatchers[index]?, call.pc.lateRefusal = false) :
    Permitted step (startsFirstThread index) system actions := by
  induction actions generalizing system with
  | nil => trivial
  | cons action rest ih =>
      obtain ⟨next, taken, continued⟩ := Option.bind_eq_some_iff.mp ran
      refine ⟨?_, fun other same => ?_⟩
      · cases action with
        | dispatcher caller outcome =>
            rintro rfl call found creating nobody
            by_contra failed
            cases step_move taken with
            | @dispatcher _ _ mover pool newPc started foundCaller moved =>
                obtain rfl : call = mover := by simpa [foundCaller] using found.symm
                have late := thrmgrDispatch_lateRefusal moved
                  (.inr ⟨creating, nobody, by simpa using failed⟩)
                have inside := (List.getElem?_eq_some_iff.mp foundCaller).1
                obtain ⟨last, there, stillLate⟩ := run_invariant
                  (fun system : System Data => ∃ call, system.dispatchers[caller]? = some call ∧
                    call.pc.lateRefusal = true)
                  (fun _ _ _ kept taken => lateRefusal_kept kept taken)
                  ⟨_, List.getElem?_set_self inside, late⟩ continued
                have kept := unrefused last there
                rw [stillLate] at kept
                cases kept
        | _ => trivial
      · obtain rfl : next = other := by simpa [taken] using same
        exact ih continued

theorem Ledger.handled_le_added [DecidableEq Data] {system : System Data} (ledger : Ledger system)
    (job : Data) : system.pool.handled.count job ≤ system.pool.added.count job := by
  have handed := ledger.handed.count_eq job
  rw [List.count_append] at handed
  rw [ledger.fifo, List.count_append]
  omega

theorem called_reachable {system : System Data} (reached : Reachable step Created anyAction system)
    (userData : Data) : Reachable step Created anyAction (called system userData) :=
  .step reached trivial
    (show step system (.callDispatch userData) = some (called system userData) from rfl)

theorem shadow_called {system : System Data} (counters : Counters (called system userData)) :
    Shadow system.dispatchers.length userData (called system userData) (called system userData) := by
  refine ⟨counters, .lock, by simp [called], rfl, rfl, ?_⟩
  simp [withoutCall, called, unlockedBy, DispatchPc.holdsMutex]

/-- Unless the call is accepted, the run without its steps ends where it has not started. -/
theorem accepting_or_erased {index : Nat} {userData : Data} {start final : System Data}
    {actions : List (Action Data)} (related : Shadow index userData start start)
    (permitted : Permitted step (startsFirstThread index) start actions)
    (ran : run step start actions = some final) :
    (∃ call, final.dispatchers[index]? = some call ∧ call.pc.accepting = true) ∨
      ∃ left, run step start (actions.filter (otherThan index)) = some left ∧
        Shadow index userData final left := by
  refine run_filter_shadow (fun system => ∃ call, system.dispatchers[index]? = some call ∧
    call.pc.accepting = true) ?_ ?_ ?_ related permitted ran
  · intro _ _ _ _ related other taken
    exact related.follows other taken
  · intro _ _ _ _ _ related own taken
    exact related.stays own taken
  · intro _ _ _ starts accepting taken
    exact accepting_kept starts accepting taken

theorem Ledger.tokens_of_alone {index : Nat} {system : System Data} {call : Dispatcher Data}
    (ledger : Ledger system) (found : system.dispatchers[index]? = some call)
    (unrefused : call.pc.refusedAfterAdd = false) (valid : system.pool.state = .valid)
    (others : callsAt (system.dispatchers.eraseIdx index) DispatchPc.refusedAfterAdd = 0) :
    system.pool.queue.length =
      system.pool.poolSigSem + callsAt system.dispatchers DispatchPc.beforePost +
        callsAt system.dispatchers DispatchPc.addedInside +
        system.workers.countP WorkerPc.hasToken := by
  have tokens := ledger.tokens valid
  have refused := countP_eraseIdx_balance
    (fun call : Dispatcher Data => call.pc.refusedAfterAdd) found
  simp only [unrefused, Bool.toNat_false] at refused
  unfold callsAt at tokens others ⊢
  omega

theorem JobsOfCalls.handled_le [DecidableEq Data] {index : Nat} {system : System Data}
    {userData : Data} {pc : DispatchPc} (jobs : JobsOfCalls system) (ledger : Ledger system)
    (found : system.dispatchers[index]? = some ⟨userData, pc⟩) (untaken : pc.tookJob = false) :
    system.pool.handled.count userData ≤
      (system.dispatchers.eraseIdx index).countP fun call =>
        call.userData = userData ∧ call.pc.tookJob = true := by
  have handled := ledger.handled_le_added userData
  have mine := jobs fun job => job == userData
  have others := countP_eraseIdx_balance
    (fun call : Dispatcher Data => call.userData == userData && call.pc.tookJob) found
  simp only [untaken, Bool.and_false, Bool.toNat_false, Nat.add_zero] at others
  calc system.pool.handled.count userData
      ≤ system.pool.added.count userData := handled
    _ = (system.dispatchers.eraseIdx index).countP fun call =>
          call.userData == userData && call.pc.tookJob := by rw [others]; exact mine
    _ ≤ _ := List.countP_mono_left fun call _ here => by simpa using here

/-- A refused call has no effect exactly if it did not fail to start the first
thread of the pool, whatever the other threads do meanwhile and afterwards. -/
theorem refused_withoutEffect_iff [DecidableEq Data] {system final : System Data} {userData : Data}
    {actions : List (Action Data)} {added : Bool}
    (reached : Reachable step Created anyAction system)
    (ran : run step (called system userData) actions = some final)
    (refused : final.dispatchers[system.dispatchers.length]? =
      some ⟨userData, .returned false added⟩) :
    RefusedWithoutEffect system.dispatchers.length userData (called system userData) actions
        final ↔
      Permitted step (startsFirstThread system.dispatchers.length) (called system userData)
        actions := by
  have start := called_reachable reached userData
  have finished : Reachable step Created anyAction final :=
    start.append_run (permitted_anyAction _ _ _) ran
  have jobs := jobsOfCalls_reachable finished
  constructor
  · intro effectless
    have erased : Reachable step Created anyAction _ :=
      start.append_run (permitted_anyAction _ _ _) effectless.erased
    -- with and without the call the same jobs were added, so the call added none
    have same := (jobs fun _ => true).symm.trans (jobsOfCalls_reachable erased fun _ => true)
    have shift := countP_set_balance
      (fun call : Dispatcher Data => true && call.pc.tookJob) refused ⟨userData, .lock⟩
    have none : added = false := by
      cases added with
      | false => rfl
      | true =>
          simp only [DispatchPc.tookJob, Bool.true_and, Bool.toNat_true, Bool.toNat_false]
            at shift same
          omega
    apply startsFirstThread_of_unrefused ran
    rw [refused]
    rintro call ⟨⟩
    simp [DispatchPc.lateRefusal, none]
  · intro permitted
    rcases accepting_or_erased (shadow_called (counters_reachable start)) permitted ran with
      ⟨call, found, accepting⟩ | ⟨left, erased, related⟩
    · rw [refused] at found
      cases found
      cases accepting
    · obtain ⟨_, pc, found, untaken, unaccepted, rfl⟩ := related
      obtain rfl : DispatchPc.returned false added = pc := by simpa [refused] using found
      have pools : withoutCall system.dispatchers.length ⟨userData, .returned false added⟩ final =
          { final with dispatchers :=
              final.dispatchers.set system.dispatchers.length ⟨userData, .lock⟩ } := by
        simp [withoutCall, unlockedBy, DispatchPc.holdsMutex]
      rw [pools] at erased
      have ledger := ledger_reachable finished
      refine ⟨erased, ?_, jobs.handled_le ledger refused untaken, ?_⟩
      · intro own
        have nobody : actions.filter (otherThan system.dispatchers.length) = [] :=
          List.filter_eq_nil_iff.mpr fun action member => by simp [own action member]
        rw [nobody] at erased
        exact (congrArg System.pool (Option.some.inj erased)).symm
      · have unrefused : (DispatchPc.returned false added).refusedAfterAdd = false := by
          simpa [DispatchPc.refusedAfterAdd, DispatchPc.tookJob] using untaken
        exact ledger.tokens_of_alone refused unrefused

def busyPool : System Nat := (run step (startedPool 300 30000) firstCall).get (by decide)

theorem busyPool_reachable : Reachable step Created anyAction busyPool :=
  .of_run (startedPool_created (by decide)) (permitted_anyAction _ _ _) (by decide)

/-- The allocation of `work_queue_add` fails while the worker goes to its wait. -/
def unallocatedCall : List (Action Nat) :=
  [.dispatcher 1 true, .worker 0 true, .dispatcher 1 true, .dispatcher 1 false, .worker 0 true,
    .dispatcher 1 true]

theorem unallocatedCall_finishes :
    (run step (called busyPool 8) unallocatedCall).isSome = true := by decide

def unallocated : System Nat :=
  (run step (called busyPool 8) unallocatedCall).get unallocatedCall_finishes

theorem refused_withoutEffect_iff_unallocated :
    RefusedWithoutEffect 1 8 (called busyPool 8) unallocatedCall unallocated := by
  have refused : unallocated.dispatchers[busyPool.dispatchers.length]? =
      some ⟨8, .returned false false⟩ := by decide
  have ran : run step (called busyPool 8) unallocatedCall = some unallocated :=
    (Option.some_get unallocatedCall_finishes).symm
  exact (refused_withoutEffect_iff busyPool_reachable ran refused).mpr (by decide)

/-- The first call on a new pool: the item is linked into the queue, then
`swartz_thread_detached_create` fails. -/
def failedFirstThread : List (Action Nat) :=
  [true, true, true, true, false, true].map (.dispatcher 0)

theorem failedFirstThread_finishes :
    (run step (called (startedPool 300 30000) 7) failedFirstThread).isSome = true := by decide

theorem failedFirstThread_keeps_job :
    ¬ ∀ (system final : System Nat) (userData : Nat) (actions : List (Action Nat)) (added : Bool),
      Reachable step Created anyAction system →
      run step (called system userData) actions = some final →
      final.dispatchers[system.dispatchers.length]? = some ⟨userData, .returned false added⟩ →
      RefusedWithoutEffect system.dispatchers.length userData (called system userData) actions
        final := by
  intro always
  have effectless := always (startedPool 300 30000) _ 7 failedFirstThread true
    (.start (startedPool_created (by decide))) (Option.some_get failedFirstThread_finishes).symm
    (by decide)
  have queue := congrArg Pool.queue (effectless.alone (by decide))
  revert queue
  decide

end DcCluster.ThreadPool
