import DcCluster.Mq.DisConnWait

/-!
What `DisConn` leaves behind. It joins the reconnect thread that it finds, but it neither
holds the lock nor stops `ReConn` meanwhile. If `ReConn` neither joins nor starts a thread
from the moment `DisConn` has read the handle, and has been left when `DisConn` returns,
then no handle is joined twice and nothing is left of the connection.
-/

namespace DcCluster.DisConn

open DcCluster.Lib
open DcCluster.Reconnect

structure Quiesced (state : State) : Prop where
  joinedOnce : state.joins.Nodup
  stopped : state.disConn = .returned →
    ∀ thread ∈ state.system.threads, thread.alive = false
  left : state.disConn = .returned →
    ∀ thread ∈ state.system.threads, thread.inside (fun _ => true) = false
  closed : state.disConn = .returned →
    state.system.members.connection = none ∧ state.system.members.session = none
  emptied : state.disConn = .returned → state.listProducer = [] ∧ state.listConsumer = []

/-- `DisConn` has not read the handle that it will join, if any. -/
def DisConnPc.reading : DisConnPc → Bool
  | .idle | .testThrd | .readThrd => true
  | _ => false

/-- `DisConn` reads no handle for which a `ReConn` has called `swartz_thread_wait` or has still
to create the thread. After it has read the handle, `ReConn` neither joins nor starts a thread,
and no callback is inside `ReConn` when it returns. -/
def leavesJoin (state : State) : Action → Prop
  | .mq action => state.disConn.reading = false →
      startsThread state.system action = false ∧ joinedBy state.system action = []
  | .call => True
  | .disConn =>
      (state.disConn = .readThrd →
        state.system.threads.countP (Thread.inside ReConnPc.atWait) = 0 ∧
          state.system.threads.countP (Thread.inside ReConnPc.atPthreadCreate) = 0) ∧
        (state.disConn = .listUnlock →
          ∀ thread ∈ state.system.threads, thread.inside (fun _ => true) = false)

instance (state : State) : (action : Action) → Decidable (leavesJoin state action)
  | .mq _ => inferInstanceAs (Decidable (_ → _))
  | .call => inferInstanceAs (Decidable True)
  | .disConn => inferInstanceAs (Decidable ((_ → _) ∧ (_ → _)))

def DisConnPc.closed : DisConnPc → Bool
  | .destroyUnlock | .listLock | .clearLists | .listUnlock | .returned => true
  | _ => false

def DisConnPc.emptied : DisConnPc → Bool
  | .listUnlock | .returned => true
  | _ => false

structure Orderly (state : State) : Prop where
  joinedOnce : state.joins.Nodup
  known : state.disConn.reading = true → ∀ handle ∈ state.joins,
    handle < state.system.members.handles.length ∧
      (state.system.members.thrdReConn = some handle →
        0 < state.system.threads.countP (Thread.inside ReConnPc.atWait))
  alive : state.disConn.reading = false → ∀ index thread,
    state.system.threads[index]? = some thread → thread.alive = true →
      ∃ handle, state.disConn = .wait (some handle) ∧
        state.system.members.handles[handle]? = some (some index)
  calls : state.disConn ≠ .idle → ∀ thread ∈ state.system.threads, thread.callDone = true
  left : state.disConn = .returned →
    ∀ thread ∈ state.system.threads, thread.inside (fun _ => true) = false
  closed : state.disConn.closed = true →
    state.system.members.connection = none ∧ state.system.members.session = none
  emptied : state.disConn.emptied = true → state.listProducer = [] ∧ state.listConsumer = []

theorem orderly_start (listProducer listConsumer : List Nat) :
    Orderly (start listProducer listConsumer) where
  joinedOnce := List.nodup_nil
  known _ handle joined := by cases joined
  alive read := by cases read
  calls begun := absurd rfl begun
  left late := by cases late
  closed late := by cases late
  emptied late := by cases late

theorem undisturbed_reachable {allowed : State → Action → Prop} {listProducer listConsumer : List Nat}
    {state : State} (reached : Reachable step (· = start listProducer listConsumer) allowed state) :
    Undisturbed state :=
  reached.invariant Undisturbed (by rintro _ rfl; exact undisturbed_start _ _)
    (fun _ _ _ _ undisturbed _ taken => undisturbed.step taken)

/-! Actions of the connection itself. -/

theorem closed_of_move {system next : System} {action : Reconnect.Action}
    (moved : Move system action next)
    (calls : ∀ thread ∈ system.threads, thread.callDone = true)
    (dead : ∀ thread ∈ system.threads, thread.alive = false) :
    next.members.connection = system.members.connection ∧
      next.members.session = system.members.session := by
  cases moved with
  | call => exact ⟨rfl, rfl⟩
  | report _ _ => exact ⟨rfl, rfl⟩
  | caller found _ => cases calls _ (List.mem_of_getElem? found)
  | visitor _ entered => exact ⟨(reConn_connection entered).1, reConn_session entered⟩
  | worker found worked =>
      have exited := dead _ (List.mem_of_getElem? found)
      rw [alive_of_doReconnWork worked] at exited
      cases exited

theorem joinedBy_nodup (system : System) (action : Reconnect.Action) :
    (joinedBy system action).Nodup := by
  cases action with
  | thread index outcome =>
      simp only [joinedBy]
      split
      · cases system.members.thrdReConn <;> simp
      · simp
  | _ => simp [joinedBy]

/-- With no call, no callback and no reconnect thread left, and no connection to report on,
nothing moves. -/
theorem not_move_of_left {system next : System} {action : Reconnect.Action}
    (moved : Move system action next) (notCall : action ≠ .callConn)
    (calls : ∀ thread ∈ system.threads, thread.callDone = true)
    (dead : ∀ thread ∈ system.threads, thread.alive = false)
    (left : ∀ thread ∈ system.threads, thread.inside (fun _ => true) = false)
    (closed : system.members.connection = none) : False := by
  cases moved with
  | call => exact notCall rfl
  | report current _ => simp [closed] at current
  | caller found _ => cases calls _ (List.mem_of_getElem? found)
  | visitor found _ => simpa using left _ (List.mem_of_getElem? found)
  | worker found worked =>
      have exited := dead _ (List.mem_of_getElem? found)
      rw [alive_of_doReconnWork worked] at exited
      cases exited

/-- The thread that joins is inside `ReConn` alone and waits with the stored handle. -/
theorem joinedBy_spec {system next : System} {action : Reconnect.Action}
    (exclusive : Exclusive system) (moved : Move system action next) {handle : Nat}
    (joins : handle ∈ joinedBy system action) :
    system.members.thrdReConn = some handle ∧
      system.threads.countP (Thread.inside ReConnPc.atWait) = 0 ∧
      0 < next.threads.countP (Thread.inside ReConnPc.atWait) := by
  cases moved with
  | call => simp [joinedBy] at joins
  | report _ _ => simp [joinedBy] at joins
  | caller found _ => simp [joinedBy, found, Thread.inside, CallerPc.inside] at joins
  | @visitor _ _ visitor pc next found entered =>
      simp only [joinedBy, found, Option.any_some, Visitor.inside_thread] at joins
      cases pc with
      | readThrd =>
          have isHandle : system.members.thrdReConn = some handle := by
            simpa [ReConnPc.atReadThrd] using joins
          have alone := exclusive.visitor_alone found entered
            (show ReConnPc.atWait .lock = false from rfl)
          simp only [reConn, Option.some.injEq] at entered
          subst entered
          refine ⟨isHandle, alone.1, ?_⟩
          rw [alone.2]
          exact Nat.one_pos
      | _ => simp [ReConnPc.atReadThrd] at joins
  | worker found _ =>
      simp [joinedBy, found, Thread.inside,
        WorkPc.inside_of_outside (exclusive.notSelfCall found)] at joins

theorem reConn_handle_before {system : System} {outcome : Bool} {pc : ReConnPc}
    {next : Step (Option ReConnPc)} (moved : reConn system outcome pc = some next) {handle : Nat}
    (isHandle : next.members.thrdReConn = some handle) :
    system.members.thrdReConn = some handle ∧
        (pc.atWait = true → next.pc.any ReConnPc.atWait = true) ∨
      handle = system.members.handles.length := by
  cases pc <;> grind -ring -linarith

theorem Move.keeps_handles {system next : System} {action : Reconnect.Action}
    (exclusive : Exclusive system) (moved : Move system action next) :
    system.members.handles.length ≤ next.members.handles.length := by
  rcases exclusive.leavesReConn_or_visitor moved with
    leaves | ⟨_, _, _, _, done, rfl, _, entered, rfl⟩
  · simp [leaves.handles]
  · rcases reConn_handle entered with ⟨same, _⟩ | ⟨_, _, _, _, longer⟩ |
      ⟨_, _, _, _, _, _, _, sets⟩
    · simp [same]
    · simp [longer]
    · simp [sets]

/-- A handle that has been joined is the current one only until `ReConn` clears it. -/
theorem known_of_move {system next : System} {action : Reconnect.Action}
    (exclusive : Exclusive system) (moved : Move system action next) {handle : Nat}
    (bound : handle < system.members.handles.length)
    (known : system.members.thrdReConn = some handle →
      0 < system.threads.countP (Thread.inside ReConnPc.atWait))
    (isHandle : next.members.thrdReConn = some handle) :
    0 < next.threads.countP (Thread.inside ReConnPc.atWait) := by
  rcases exclusive.leavesReConn_or_visitor moved with
    leaves | ⟨index, outcome, visitor, pc, done, rfl, found, entered, rfl⟩
  · rw [leaves.handle] at isHandle
    rw [leaves.inside _ rfl]
    exact known isHandle
  · obtain ⟨before, after⟩ := exclusive.visitor_counts found entered
      (show ReConnPc.atWait .lock = false from rfl)
    rcases reConn_handle_before entered isHandle with ⟨wasHandle, stays⟩ | isLast
    · exact after.mpr (stays (before.mp (known wasHandle)))
    · omega

theorem Orderly.dead {state : State} (orderly : Orderly state)
    (joined : state.disConn.untilJoined = false) {index : Nat} {thread : Thread}
    (found : state.system.threads[index]? = some thread) : thread.alive = false := by
  by_contra runs
  have read : state.disConn.reading = false := by
    cases here : state.disConn <;> simp_all [DisConnPc.reading, DisConnPc.untilJoined]
  obtain ⟨_, waits, _⟩ := orderly.alive read index thread found (by simpa using runs)
  rw [waits] at joined
  cases joined

section Mq

variable {state : State} (orderly : Orderly state) {system : System} {action : Reconnect.Action}
  (moved : Move state.system action system)
  (calls : state.disConn ≠ .idle → ∀ thread ∈ system.threads, thread.callDone = true)
include orderly moved calls

/-- `DisConn` has changed nothing yet, so `ReConn` works under its own lock. -/
theorem Orderly.mq_reading (undisturbed : Undisturbed state)
    (reading : state.disConn.reading = true) :
    Orderly { state with
      system := system, joins := state.joins ++ joinedBy state.system action } := by
  have reached := undisturbed (by
    cases here : state.disConn <;> simp_all [DisConnPc.reading, DisConnPc.untilJoined])
  have exclusive := exclusive_reachable reached
  have known := orderly.known reading
  refine ⟨?_, fun _ handle joined => ?_, fun read => ?_, calls, fun late => ?_, fun late => ?_,
    orderly.emptied⟩
  · refine List.nodup_append.mpr ⟨orderly.joinedOnce, joinedBy_nodup _ _, ?_⟩
    rintro handle before _ joins rfl
    obtain ⟨isHandle, notWaiting, _⟩ := joinedBy_spec exclusive moved joins
    have waiting := (known handle before).2 isHandle
    omega
  · have longer := Move.keeps_handles exclusive moved
    rcases List.mem_append.mp joined with before | joins
    · obtain ⟨bound, waiting⟩ := known handle before
      exact ⟨by dsimp only; omega, known_of_move exclusive moved bound waiting⟩
    · obtain ⟨isHandle, _, waiting⟩ := joinedBy_spec exclusive moved joins
      have bound := (handles_reachable reached).bound isHandle
      exact ⟨by dsimp only; omega, fun _ => waiting⟩
  · dsimp only at read
    rw [reading] at read
    cases read
  · dsimp only at late
    rw [late] at reading
    cases reading
  · dsimp only at late
    cases here : state.disConn <;> simp_all [DisConnPc.reading, DisConnPc.closed]

/-- `DisConn` knows the handle, and `ReConn` adds no thread to the one that it refers to. -/
theorem Orderly.mq_read (undisturbed : Undisturbed state) (read : state.disConn.reading = false)
    (notCall : action ≠ .callConn) (starts : startsThread state.system action = false) :
    Orderly { state with system := system } := by
  have begun : state.disConn ≠ .idle := fun idle => by
    rw [idle] at read
    cases read
  have dead (joined : state.disConn.untilJoined = false) (thread : Thread)
      (member : thread ∈ state.system.threads) : thread.alive = false := by
    obtain ⟨index, found⟩ := List.mem_iff_getElem?.mp member
    exact orderly.dead joined found
  refine ⟨orderly.joinedOnce, fun reading => ?_, fun _ index thread found runs => ?_,
    calls, fun late => ?_, fun late => ?_, orderly.emptied⟩
  · dsimp only at reading
    rw [read] at reading
    cases reading
  · rcases moved.alive_before found runs with ⟨old, before, ran⟩ | ⟨started, _⟩
    · obtain ⟨handle, waits, isIndex⟩ := orderly.alive read index old before ran
      have reached := undisturbed (by rw [waits]; rfl)
      exact ⟨handle, waits, (handles_reachable reached).keeps_index (exclusive_reachable reached)
        moved isIndex⟩
    · rw [starts] at started
      cases started
  · dsimp only at late
    exact (not_move_of_left moved notCall (orderly.calls begun) (dead (by rw [late]; rfl))
      (orderly.left late) (orderly.closed (by rw [late]; rfl)).1).elim
  · have joined : state.disConn.untilJoined = false := by
      dsimp only at late
      cases here : state.disConn <;> simp_all [DisConnPc.closed, DisConnPc.untilJoined]
    obtain ⟨sameConnection, sameSession⟩ :=
      closed_of_move moved (orderly.calls begun) (dead joined)
    rw [sameConnection, sameSession]
    exact orderly.closed late

end Mq

theorem Orderly.mq {state next : State} {action : Reconnect.Action} (orderly : Orderly state)
    (undisturbed : Undisturbed state) (allowed : leavesJoin state (.mq action))
    (taken : step state (.mq action) = some next) : Orderly next := by
  obtain ⟨onlyIdle, system, stepped, rfl⟩ := step_mq taken
  have moved := step_move stepped
  have calls (begun : state.disConn ≠ .idle) :=
    moved.keeps_callDone (fun isCall => begun (onlyIdle isCall)) (orderly.calls begun)
  cases reading : state.disConn.reading with
  | true => exact orderly.mq_reading moved calls undisturbed reading
  | false =>
      obtain ⟨starts, joins⟩ := allowed reading
      rw [joins, List.append_nil]
      have notCall : action ≠ .callConn := fun isCall => by
        rw [onlyIdle isCall] at reading
        cases reading
      exact orderly.mq_read moved calls undisturbed reading notCall starts

/-! Statements of `DisConn`. -/

/-- After the join only the members and the lists change. -/
theorem Orderly.late {state next : State} (orderly : Orderly state)
    (joined : state.disConn.untilJoined = false ∧ next.disConn.untilJoined = false)
    (sameThreads : next.system.threads = state.system.threads) (sameJoins : next.joins = state.joins)
    (left : next.disConn = .returned →
      ∀ thread ∈ next.system.threads, thread.inside (fun _ => true) = false)
    (closed : next.disConn.closed = true →
      next.system.members.connection = none ∧ next.system.members.session = none)
    (emptied : next.disConn.emptied = true → next.listProducer = [] ∧ next.listConsumer = []) :
    Orderly next := by
  refine ⟨by rw [sameJoins]; exact orderly.joinedOnce, fun read => ?_,
    fun _ index thread found runs => ?_, fun _ => ?_, left, closed, emptied⟩
  · cases here : next.disConn <;> simp_all [DisConnPc.reading, DisConnPc.untilJoined]
  · rw [sameThreads] at found
    rw [orderly.dead joined.1 found] at runs
    cases runs
  · rw [sameThreads]
    exact orderly.calls fun idle => by
      rw [idle] at joined
      cases joined.1

theorem Orderly.early {state : State} (orderly : Orderly state)
    (reading : state.disConn.reading = true)
    (calls : ∀ thread ∈ state.system.threads, thread.callDone = true) {pc : DisConnPc}
    (stillReading : pc.reading = true) : Orderly { state with disConn := pc } where
  joinedOnce := orderly.joinedOnce
  known _ := orderly.known reading
  alive read := by
    rw [stillReading] at read
    cases read
  calls _ := calls
  left late := by
    obtain rfl : pc = .returned := late
    cases stillReading
  closed late := by cases pc <;> simp_all [DisConnPc.reading, DisConnPc.closed]
  emptied late := by cases pc <;> simp_all [DisConnPc.reading, DisConnPc.emptied]

theorem Orderly.testThrd {state : State} (orderly : Orderly state) (undisturbed : Undisturbed state)
    (here : state.disConn = .testThrd) :
    Orderly { state with
      disConn := if state.system.members.thrdReConn.isSome then .readThrd else .destroyLock } := by
  have reached := undisturbed (by rw [here]; rfl)
  have calls := orderly.calls (by simp [here])
  cases found : state.system.members.thrdReConn.isSome with
  | true => exact orderly.early (by rw [here]; rfl) calls rfl
  | false =>
      exact
        { joinedOnce := orderly.joinedOnce
          known := fun read => by cases read
          alive := fun _ index thread there runs => by
            obtain ⟨handle, isHandle, _⟩ := (tracked_reachable reached).alive index thread there runs
            simp [isHandle] at found
          calls := fun _ => calls
          left := fun late => by cases late
          closed := fun late => by cases late
          emptied := fun late => by cases late }

theorem Orderly.readThrd {state : State} (orderly : Orderly state) (undisturbed : Undisturbed state)
    (here : state.disConn = .readThrd)
    (notWaiting : state.system.threads.countP (Thread.inside ReConnPc.atWait) = 0) :
    Orderly { state with
      disConn := .wait state.system.members.thrdReConn
      joins := state.joins ++ state.system.members.thrdReConn.toList } where
  joinedOnce := by
    refine List.nodup_append.mpr ⟨orderly.joinedOnce, ?_, ?_⟩
    · cases state.system.members.thrdReConn <;> simp
    · rintro handle before _ joins rfl
      have waiting := (orderly.known (by rw [here]; rfl) handle before).2 (by simpa using joins)
      omega
  known read := by cases read
  alive _ index thread there runs := by
    have reached := undisturbed (by rw [here]; rfl)
    obtain ⟨handle, isHandle, isIndex⟩ := (tracked_reachable reached).alive index thread there runs
    exact ⟨handle, by rw [isHandle], isIndex⟩
  calls _ := orderly.calls (by simp [here])
  left late := by cases late
  closed late := by cases late
  emptied late := by cases late

theorem Orderly.wait {state : State} (orderly : Orderly state) {handle : Option Nat}
    (here : state.disConn = .wait handle) (joinable : state.system.joinable handle = true) :
    Orderly { state with disConn := .clearThrd } where
  joinedOnce := orderly.joinedOnce
  known read := by cases read
  alive _ index thread there runs := by
    obtain ⟨joined, waits, isIndex⟩ := orderly.alive (by rw [here]; rfl) index thread there runs
    rw [here, DisConnPc.wait.injEq] at waits
    rw [waits, System.joinable_some_iff] at joinable
    rw [System.threadOf_eq_some_iff.mpr ⟨index, isIndex, there⟩, Option.some.injEq] at joinable
    rw [joinable] at runs
    cases runs
  calls _ := orderly.calls (by simp [here])
  left late := by cases late
  closed late := by cases late
  emptied late := by cases late

theorem Orderly.disConn {state next : State} (orderly : Orderly state)
    (undisturbed : Undisturbed state) (allowed : leavesJoin state .disConn)
    (taken : disConn state = some next) : Orderly next := by
  cases here : state.disConn with
  | idle | returned => simp [DisConn.disConn, here] at taken
  | testThrd =>
      simp only [DisConn.disConn, here, Option.some.injEq] at taken
      subst next
      exact orderly.testThrd undisturbed here
  | readThrd =>
      simp only [DisConn.disConn, here, Option.some.injEq] at taken
      subst next
      exact orderly.readThrd undisturbed here (allowed.1 here).1
  | wait handle =>
      simp only [DisConn.disConn, here, Option.ite_none_right_eq_some, Option.some.injEq] at taken
      obtain ⟨joinable, rfl⟩ := taken
      exact orderly.wait here joinable
  | destroyLock =>
      simp only [DisConn.disConn, here, Option.map_eq_some_iff] at taken
      obtain ⟨locked, _, rfl⟩ := taken
      exact orderly.late ⟨by rw [here]; rfl, rfl⟩ rfl rfl (fun late => by cases late)
        (fun late => by cases late) (fun late => by cases late)
  | listLock =>
      simp only [DisConn.disConn, here, Option.map_eq_some_iff] at taken
      obtain ⟨locked, locks, rfl⟩ := taken
      refine orderly.late ⟨by rw [here]; rfl, rfl⟩ rfl rfl (fun late => by cases late)
        (fun _ => ?_) (fun late => by cases late)
      have closed := orderly.closed (by rw [here]; rfl)
      simp only [lockReConn, Option.ite_none_left_eq_some, Option.some.injEq] at locks
      obtain ⟨_, rfl⟩ := locks
      exact closed
  | clearThrd =>
      simp only [DisConn.disConn, here, Option.some.injEq] at taken
      subst next
      exact orderly.late ⟨by rw [here]; rfl, rfl⟩ rfl rfl (fun late => by cases late)
        (fun late => by cases late) (fun late => by cases late)
  | destroy =>
      simp only [DisConn.disConn, here, Option.some.injEq] at taken
      subst next
      exact orderly.late ⟨by rw [here]; rfl, rfl⟩ rfl rfl (fun late => by cases late)
        (fun _ => ⟨rfl, rfl⟩) (fun late => by cases late)
  | destroyUnlock =>
      simp only [DisConn.disConn, here, Option.some.injEq] at taken
      subst next
      exact orderly.late ⟨by rw [here]; rfl, rfl⟩ rfl rfl (fun late => by cases late)
        (fun _ => orderly.closed (by rw [here]; rfl)) (fun late => by cases late)
  | clearLists =>
      simp only [DisConn.disConn, here, Option.some.injEq] at taken
      subst next
      exact orderly.late ⟨by rw [here]; rfl, rfl⟩ rfl rfl (fun late => by cases late)
        (fun _ => orderly.closed (by rw [here]; rfl)) (fun _ => ⟨rfl, rfl⟩)
  | listUnlock =>
      simp only [DisConn.disConn, here, Option.some.injEq] at taken
      subst next
      exact orderly.late ⟨by rw [here]; rfl, rfl⟩ rfl rfl (fun _ => allowed.2 here)
        (fun _ => orderly.closed (by rw [here]; rfl)) (fun _ => orderly.emptied (by rw [here]; rfl))

theorem orderly_reachable {listProducer listConsumer : List Nat} {state : State}
    (reached : Reachable step (· = start listProducer listConsumer) leavesJoin state) :
    Orderly state := by
  refine reached.invariant Orderly (by rintro _ rfl; exact orderly_start _ _) ?_
  intro state action next reachedState orderly allowed taken
  have undisturbed := undisturbed_reachable reachedState
  cases action with
  | mq action => exact orderly.mq undisturbed allowed taken
  | call =>
      obtain ⟨idle, calls, rfl⟩ := step_call taken
      exact orderly.early (by rw [idle]; rfl) calls rfl
  | disConn => exact orderly.disConn undisturbed allowed taken

/-- For every interleaving of `DisConn` with callbacks and reconnect threads in which `ReConn`
leaves the join to `DisConn`, and its callers have come back when `DisConn` returns. -/
theorem quiesced_of_leavesJoin {listProducer listConsumer : List Nat} {state : State}
    (reached : Reachable step (· = start listProducer listConsumer) leavesJoin state) :
    Quiesced state := by
  have orderly := orderly_reachable reached
  refine ⟨orderly.joinedOnce, fun returned thread member => ?_, orderly.left,
    fun returned => ?_, fun returned => ?_⟩
  · obtain ⟨index, found⟩ := List.mem_iff_getElem?.mp member
    exact orderly.dead (by rw [returned]; rfl) found
  · exact orderly.closed (by rw [returned]; rfl)
  · exact orderly.emptied (by rw [returned]; rfl)

/-- `DisConn` waits for a reconnect thread that is about to succeed. The connection that it
makes fails once more meanwhile, and that callback finds `m_bReConn` set. -/
def failureDuringJoin : List Action :=
  .mq .callConn :: List.replicate 4 (.mq (.thread 0 true)) ++
    .mq .onException :: List.replicate 8 (.mq (.thread 1 true)) ++ [.call, .disConn, .disConn] ++
    List.replicate 6 (.mq (.thread 2 true)) ++ .mq .onException ::
    List.replicate 3 (.mq (.thread 3 true)) ++ List.replicate 9 (.mq (.thread 2 true)) ++
    List.replicate 8 .disConn

theorem quiesced_of_leavesJoin_failureDuringJoin :
    ∃ state, run step (start [0] [1]) failureDuringJoin = some state ∧
      state.disConn = .returned ∧ state.joins = [0] ∧ Quiesced state := by
  have finishes : (run step (start [0] [1]) failureDuringJoin).isSome = true := by decide +kernel
  obtain ⟨state, executed⟩ := Option.isSome_iff_exists.mp finishes
  have reached : Reachable step (· = start [0] [1]) leavesJoin state :=
    .append_run (.start rfl) (by decide +kernel) executed
  have outcome : (run step (start [0] [1]) failureDuringJoin).map
      (fun state => (state.disConn, state.joins)) = some (.returned, [0]) := by decide +kernel
  rw [executed, Option.map_some, Option.some.injEq, Prod.mk.injEq] at outcome
  exact ⟨state, executed, outcome.1, outcome.2, quiesced_of_leavesJoin reached⟩

/-- The connection fails right after `DisConn` has found no handle. -/
def failureAfterTest : List Action :=
  .mq .callConn :: List.replicate 4 (.mq (.thread 0 true)) ++ [.call, .disConn] ++
    .mq .onException :: List.replicate 8 (.mq (.thread 1 true)) ++ List.replicate 6 .disConn

/-- The connection fails before `DisConn` is called, and the callback gets the lock after
`DisConn` has returned. -/
def lateCallback : List Action :=
  .mq .callConn :: List.replicate 4 (.mq (.thread 0 true)) ++ [.mq .onException, .call] ++
    List.replicate 7 .disConn ++ List.replicate 8 (.mq (.thread 1 true))

/-- A connection that has been replaced once fails again while `DisConn` waits for the thread
that replaced it, and the callback waits for that thread too. -/
def failureAfterRead : List Action :=
  .mq .callConn :: List.replicate 4 (.mq (.thread 0 true)) ++
    .mq .onException :: List.replicate 8 (.mq (.thread 1 true)) ++
    List.replicate 15 (.mq (.thread 2 true)) ++ [.call, .disConn, .disConn] ++
    .mq .onException :: List.replicate 7 (.mq (.thread 3 true))

theorem not_quiesced_of_started {actions : List Action}
    (outcome : (run step (start [] []) actions).map
      (fun state => (state.disConn, state.system.threads[2]?)) =
        some (.returned, some (.reconnect .setFlag))) :
    ∃ state, run step (start [] []) actions = some state ∧ state.disConn = .returned ∧
      state.system.threads[2]? = some (.reconnect .setFlag) ∧ ¬Quiesced state := by
  obtain ⟨state, executed, found⟩ := Option.map_eq_some_iff.mp outcome
  rw [Prod.mk.injEq] at found
  refine ⟨state, executed, found.1, found.2, fun quiesced => ?_⟩
  cases quiesced.stopped found.1 _ (List.mem_of_getElem? found.2)

theorem disConn_leaves_running_thread :
    (∃ state, run step (start [] []) failureAfterTest = some state ∧ state.disConn = .returned ∧
      state.system.threads[2]? = some (.reconnect .setFlag) ∧ ¬Quiesced state) ∧
    (∃ state, run step (start [] []) lateCallback = some state ∧ state.disConn = .returned ∧
      state.system.threads[2]? = some (.reconnect .setFlag) ∧ ¬Quiesced state) ∧
    ∃ state, run step (start [] []) failureAfterRead = some state ∧ state.joins = [0, 0] ∧
      ¬Quiesced state := by
  refine ⟨not_quiesced_of_started (by decide +kernel), not_quiesced_of_started (by decide +kernel),
    ?_⟩
  · have outcome : (run step (start [] []) failureAfterRead).map State.joins = some [0, 0] := by
      decide +kernel
    obtain ⟨state, executed, found⟩ := Option.map_eq_some_iff.mp outcome
    refine ⟨state, executed, found, fun quiesced => ?_⟩
    have once := quiesced.joinedOnce
    rw [found] at once
    revert once
    decide

end DcCluster.DisConn
