import DcCluster.Mq.ReconnectJoin
import DcCluster.Mq.ReconnectReports

/-!
The handle `m_thrdReConn` knows the running reconnect thread: whichever reconnect thread
has not terminated is the one it refers to. `ReConn` keeps it so because it never starts
a thread before the handle of the previous one has been joined and cleared.
-/

namespace DcCluster.Reconnect

open DcCluster.Lib

/-- About to call `swartz_thread_wait`. -/
@[grind] def ReConnPc.atReadThrd : ReConnPc → Bool
  | .readThrd => true
  | _ => false

/-- Has called `swartz_thread_wait` and not cleared the handle yet. -/
@[grind] def ReConnPc.atWait : ReConnPc → Bool
  | .join _ | .clearThrd => true
  | _ => false

@[grind] def ReConnPc.atClearThrd : ReConnPc → Bool
  | .clearThrd => true
  | _ => false

/-- The old semaphore is gone and the old thread still has its handle. -/
@[grind] def ReConnPc.withoutSem : ReConnPc → Bool
  | .readThrd | .join _ | .clearThrd => true
  | _ => false

@[grind] def ReConnPc.beforeStore : ReConnPc → Bool
  | .createSem | .createThrd => true
  | _ => false

@[grind] def ReConnPc.atCreateThrd : ReConnPc → Bool
  | .createThrd => true
  | _ => false

def Thread.alive : Thread → Bool := Thread.working (· != .exited)

/-- No call of `Conn` is in progress in this thread. -/
def Thread.callDone : Thread → Bool
  | .caller pc => pc == .returned
  | _ => true

@[grind] def WorkPc.leftLoop : WorkPc → Bool
  | .finalLock | .clearFlag | .finalUnlock | .leaving | .exited => true
  | _ => false

/-- A reconnect thread in the loop of `DoReconnWork`. -/
def Thread.looping : Thread → Bool := Thread.working (!·.leftLoop)

structure Tracked (system : System) : Prop where
  alive : ∀ index thread, system.threads[index]? = some thread → thread.alive = true →
    ∃ handle, system.members.thrdReConn = some handle ∧
      system.members.handles[handle]? = some (some index)
  paired : system.members.thrdReConn.isSome = true → system.members.sem.isSome = true ∨
    0 < system.threads.countP (Thread.inside ReConnPc.withoutSem)
  cleared : 0 < system.threads.countP (Thread.inside ReConnPc.beforeStore) →
    system.members.thrdReConn.isSome = false
  ready : 0 < system.threads.countP (Thread.inside ReConnPc.atCreateThrd) →
    system.members.sem.isSome = true
  joined : 0 < system.threads.countP (Thread.inside ReConnPc.atClearThrd) →
    system.joinable system.members.thrdReConn = true

theorem Tracked.constructed : Tracked constructed := by
  constructor <;> simp [Reconnect.constructed]

theorem getElem?_moved {threads : List Thread} {index other : Nat} {new thread : Thread}
    {started : Bool} (found : (threads.set index new ++ newThreads started)[other]? = some thread) :
    threads[other]? = some thread ∨ other = index ∧ thread = new ∨
      started = true ∧ other = threads.length ∧ thread = .reconnect .setFlag := by
  by_cases bound : other < threads.length
  · rw [List.getElem?_append_left (by simpa using bound)] at found
    by_cases same : index = other
    · subst other
      rw [List.getElem?_set_self bound, Option.some.injEq] at found
      exact .inr (.inl ⟨rfl, found.symm⟩)
    · rw [List.getElem?_set_ne same] at found
      exact .inl found
  · rw [List.getElem?_append_right (by simpa using bound), List.length_set] at found
    cases started with
    | false => simp [newThreads] at found
    | true =>
        obtain ⟨offset, rfl⟩ := Nat.exists_eq_add_of_le (Nat.le_of_not_lt bound)
        cases offset with
        | zero =>
            simp only [newThreads, Nat.add_zero, Nat.sub_self, ↓reduceIte,
              List.getElem?_cons_zero, Option.some.injEq] at found
            exact .inr (.inr ⟨rfl, rfl, found.symm⟩)
        | succ offset => simp [newThreads] at found

def startsThread (system : System) : Action → Bool
  | .thread index outcome =>
      outcome && system.threads[index]?.any (Thread.inside ReConnPc.atPthreadCreate)
  | _ => false

theorem startsThread_inside {system : System} {action : Action}
    (starts : startsThread system action = true) :
    0 < system.threads.countP (Thread.inside ReConnPc.atPthreadCreate) := by
  cases action with
  | thread index outcome =>
      simp only [startsThread, Bool.and_eq_true, Option.any_eq_true] at starts
      obtain ⟨_, thread, found, creates⟩ := starts
      exact countP_pos_of_found _ found creates
  | _ => cases starts

/-- What the creation of a thread does to the handle that is stored. -/
def GetsThread (system : System) (members : Members) (index : Nat) : Prop :=
  ∃ handle, system.members.thrdReConn = some handle ∧ members.thrdReConn = some handle ∧
    members.handles = system.members.handles.set handle (some index)

theorem Handles.getsThread {system : System} (handles : Handles system) {action : Action}
    (starts : startsThread system action = true) {members : Members} {index : Nat}
    (gets : GetsThread system members index) :
    ∃ handle, members.thrdReConn = some handle ∧ members.handles[handle]? = some (some index) := by
  obtain ⟨handle, before, after, sets⟩ := gets
  have empty := handles.empty_of_creating (startsThread_inside starts) before
  have bound := (List.getElem?_eq_some_iff.mp empty).1
  exact ⟨handle, after, by rw [sets, List.getElem?_set_self bound]⟩

theorem reConn_started {system : System} {outcome : Bool} {pc : ReConnPc}
    {next : Step (Option ReConnPc)} (moved : reConn system outcome pc = some next)
    (started : next.started = true) :
    (outcome && pc.atPthreadCreate) = true ∧
      GetsThread system next.members system.threads.length := by
  rcases reConn_handle moved with ⟨_, stays, _⟩ | ⟨_, _, stays, _⟩ |
    ⟨rfl, rfl, _, _, same, handle, isHandle, sets⟩
  · simp [stays] at started
  · simp [stays] at started
  · exact ⟨rfl, handle, isHandle, by rw [same, isHandle], sets⟩

theorem doReconnWork_started {system : System} {outcome : Bool} {pc : WorkPc} {next : Step WorkPc}
    (moved : doReconnWork system outcome pc = some next) (started : next.started = true) :
    (outcome && pc.inside ReConnPc.atPthreadCreate) = true ∧
      GetsThread system next.members system.threads.length := by
  by_cases calls : pc.selfCall = true
  · cases pc with
    | reConn pc =>
        simp only [doReconnWork, Option.map_eq_some_iff] at moved
        obtain ⟨inner, entered, rfl⟩ := moved
        exact reConn_started entered started
    | _ => cases calls
  · simp [(doReconnWork_frame moved (by simpa using calls)).1] at started

theorem alive_of_doReconnWork {system : System} {outcome : Bool} {pc : WorkPc} {next : Step WorkPc}
    (moved : doReconnWork system outcome pc = some next) : (Thread.reconnect pc).alive = true := by
  cases pc with
  | exited => cases moved
  | _ => rfl

/-- A reconnect thread that runs after an action ran before it, or it has just been started
for the handle that is stored. -/
theorem Move.alive_before {system next : System} {action : Action}
    (moved : Move system action next) {index : Nat} {thread : Thread}
    (found : next.threads[index]? = some thread) (alive : thread.alive = true) :
    (∃ old, system.threads[index]? = some old ∧ old.alive = true) ∨
      startsThread system action = true ∧ GetsThread system next.members index := by
  have appended {fresh : Thread} (dead : fresh.alive = false)
      (inside : (system.threads ++ [fresh])[index]? = some thread) :
      ∃ old, system.threads[index]? = some old ∧ old.alive = true := by
    by_cases bound : index < system.threads.length
    · rw [List.getElem?_append_left bound] at inside
      exact ⟨thread, inside, alive⟩
    · rw [List.getElem?_append_right (by omega)] at inside
      have isFresh := List.mem_singleton.mp (List.mem_of_getElem? inside)
      rw [isFresh, dead] at alive
      cases alive
  cases moved with
  | call => exact .inl (appended rfl found)
  | report _ _ => exact .inl (appended rfl found)
  | caller _ connected =>
      rcases getElem?_moved found with old | ⟨_, rfl⟩ | ⟨started, _, _⟩
      · exact .inl ⟨thread, old, alive⟩
      · cases alive
      · simp [(conn_frame connected).1] at started
  | @visitor _ _ visitor _ _ here entered =>
      rcases getElem?_moved found with old | ⟨_, rfl⟩ | ⟨started, rfl, _⟩
      · exact .inl ⟨thread, old, alive⟩
      · simp [Thread.alive] at alive
      · have starts := reConn_started entered started
        exact .inr (by simpa [startsThread, here] using starts)
  | worker here worked =>
      rcases getElem?_moved found with old | ⟨rfl, rfl⟩ | ⟨started, rfl, _⟩
      · exact .inl ⟨thread, old, alive⟩
      · exact .inl ⟨_, here, alive_of_doReconnWork worked⟩
      · have starts := doReconnWork_started worked started
        exact .inr (by simpa [startsThread, here, Thread.inside] using starts)

theorem Move.keeps_callDone {system next : System} {action : Action}
    (moved : Move system action next) (notCall : action ≠ .callConn)
    (calls : ∀ thread ∈ system.threads, thread.callDone = true) :
    ∀ thread ∈ next.threads, thread.callDone = true := by
  intro thread member
  cases moved with
  | call => exact absurd rfl notCall
  | report _ _ =>
      rcases List.mem_append.mp member with old | new
      · exact calls thread old
      · rw [List.mem_singleton.mp new]
        rfl
  | caller found _ => cases calls _ (List.mem_of_getElem? found)
  | @visitor _ _ visitor _ _ found _ =>
      rcases mem_moved member with old | rfl | ⟨_, rfl⟩
      · exact calls thread old
      · cases visitor with
        | caller => cases calls _ (List.mem_of_getElem? found)
        | callback => rfl
      · rfl
  | worker _ _ =>
      rcases mem_moved member with old | rfl | ⟨_, rfl⟩
      · exact calls thread old
      · rfl
      · rfl

theorem reConn_session {system : System} {outcome : Bool} {pc : ReConnPc}
    {next : Step (Option ReConnPc)} (moved : reConn system outcome pc = some next) :
    next.members.session = system.members.session := by
  cases pc <;> grind -ring -linarith

theorem Tracked.dead_of_joinable {system : System} (tracked : Tracked system)
    (joinable : system.joinable system.members.thrdReConn = true) {index : Nat} {thread : Thread}
    (found : system.threads[index]? = some thread) : thread.alive = false := by
  by_contra alive
  simp only [Bool.not_eq_false] at alive
  obtain ⟨handle, isHandle, isIndex⟩ := tracked.alive index thread found alive
  rw [isHandle, System.joinable_some_iff] at joinable
  obtain ⟨other, sameIndex, there⟩ := System.threadOf_eq_some_iff.mp joinable
  obtain rfl : other = index := by simpa [isIndex] using sameIndex.symm
  obtain rfl : thread = .reconnect .exited := by simpa [found] using there
  cases alive

/-! One statement of `ReConn`, whose thread is the only one inside. -/

section Local

variable {system : System} {outcome : Bool} {pc : ReConnPc} {next : Step (Option ReConnPc)}
  (moved : reConn system outcome pc = some next)
include moved

theorem reConn_paired
    (paired : system.members.thrdReConn.isSome = true →
      system.members.sem.isSome = true ∨ pc.withoutSem = true)
    (cleared : pc.beforeStore = true → system.members.thrdReConn.isSome = false)
    (ready : pc.atCreateThrd = true → system.members.sem.isSome = true)
    (isSome : next.members.thrdReConn.isSome = true) :
    next.members.sem.isSome = true ∨ next.pc.any ReConnPc.withoutSem = true := by
  cases pc <;> grind -ring -linarith

theorem reConn_cleared
    (paired : system.members.thrdReConn.isSome = true →
      system.members.sem.isSome = true ∨ pc.withoutSem = true)
    (cleared : pc.beforeStore = true → system.members.thrdReConn.isSome = false)
    (creates : next.pc.any ReConnPc.beforeStore = true) : next.members.thrdReConn.isSome = false := by
  cases pc <;> grind -ring -linarith

theorem reConn_ready (creates : next.pc.any ReConnPc.atCreateThrd = true) :
    next.members.sem.isSome = true := by
  cases pc <;> grind -ring -linarith

theorem reConn_joined (waits : ∀ handle, pc = .join handle → handle = system.members.thrdReConn)
    (clears : next.pc.any ReConnPc.atClearThrd = true) :
    next.members.thrdReConn = system.members.thrdReConn ∧
      system.joinable system.members.thrdReConn = true := by
  cases pc <;> grind -ring -linarith

/-- The only statements that take away the handle of a thread are the store after the join
and those of a creation. -/
theorem reConn_keeps_handle (staysPut : pc.beforeStore = false ∧ pc.atClearThrd = false ∧
      pc.atPthreadCreate = false) :
    next.members.thrdReConn = system.members.thrdReConn ∧
      next.members.handles = system.members.handles := by
  cases pc <;> grind -ring -linarith

end Local

theorem Tracked.visitor {system next : System} {index : Nat} {outcome : Bool} {visitor : Visitor}
    {pc : ReConnPc} {done : Step (Option ReConnPc)} (tracked : Tracked system)
    (exclusive : Exclusive system) (handles : Handles system)
    (moved : Move system (.thread index outcome) next)
    (found : system.threads[index]? = some (visitor.thread (some pc)))
    (entered : reConn system outcome pc = some done)
    (isNext : next = { members := done.members
                       threads := system.threads.set index (visitor.thread done.pc) ++
                         newThreads done.started }) : Tracked next := by
  have counts {point : ReConnPc → Bool} (past : point .lock = false) :
      (0 < system.threads.countP (Thread.inside point) ↔ point pc = true) ∧
        (0 < next.threads.countP (Thread.inside point) ↔ done.pc.any point = true) := by
    rw [isNext]
    exact exclusive.visitor_counts found entered past
  have paired (isSome : system.members.thrdReConn.isSome = true) :=
    (tracked.paired isSome).imp_right (counts rfl).1.mp
  have cleared (creates : pc.beforeStore = true) := tracked.cleared ((counts rfl).1.mpr creates)
  have ready (creates : pc.atCreateThrd = true) := tracked.ready ((counts rfl).1.mpr creates)
  have waits (handle : Option Nat) (isJoin : pc = .join handle) :
      handle = system.members.thrdReConn := by
    refine handles.waits handle ((@counts (ReConnPc.waitsOn handle) rfl).1.mpr ?_)
    simp [isJoin, ReConnPc.waitsOn]
  have sameMembers : next.members = done.members := congrArg System.members isNext
  refine ⟨fun other thread there alive => ?_, ?_, fun creates => ?_, fun creates => ?_,
    fun clears => ?_⟩
  · rcases moved.alive_before there alive with ⟨old, before, wasAlive⟩ | ⟨starts, gets⟩
    · obtain ⟨handle, isHandle, isIndex⟩ := tracked.alive other old before wasAlive
      have staysPut : pc.beforeStore = false ∧ pc.atClearThrd = false ∧
          pc.atPthreadCreate = false := by
        refine ⟨?_, ?_, ?_⟩
        · by_contra creates
          have none := cleared (by simpa using creates)
          simp [isHandle] at none
        · by_contra clears
          have joinable := tracked.joined ((counts rfl).1.mpr (by simpa using clears))
          have dead := tracked.dead_of_joinable joinable before
          simp [dead] at wasAlive
        · by_contra creates
          have empty :=
            handles.empty_of_creating ((counts rfl).1.mpr (by simpa using creates)) isHandle
          simp [empty] at isIndex
      obtain ⟨sameHandle, sameHandles⟩ := reConn_keeps_handle entered staysPut
      rw [sameMembers, sameHandle, sameHandles]
      exact ⟨handle, isHandle, isIndex⟩
    · exact handles.getsThread starts gets
  · rw [sameMembers]
    intro isSome
    exact (reConn_paired entered paired cleared ready isSome).imp_right (counts rfl).2.mpr
  · rw [sameMembers]
    exact reConn_cleared entered paired cleared ((counts rfl).2.mp creates)
  · rw [sameMembers]
    exact reConn_ready entered ((counts rfl).2.mp creates)
  · obtain ⟨same, joinable⟩ := reConn_joined entered waits ((counts rfl).2.mp clears)
    rw [sameMembers, same]
    exact handles.keeps_joinable exclusive moved joinable

theorem Tracked.move {system next : System} {action : Action} (tracked : Tracked system)
    (exclusive : Exclusive system) (handles : Handles system) (moved : Move system action next) :
    Tracked next := by
  rcases exclusive.leavesReConn_or_visitor moved with
    leaves | ⟨index, outcome, visitor, pc, done, rfl, found, entered, isNext⟩
  · refine ⟨fun index thread found alive => ?_, fun some => ?_, fun here => ?_, fun here => ?_,
      fun here => ?_⟩
    · rcases moved.alive_before found alive with ⟨old, before, wasAlive⟩ | ⟨starts, gets⟩
      · rw [leaves.handle, leaves.handles]
        exact tracked.alive index old before wasAlive
      · exact handles.getsThread starts gets
    · rw [leaves.handle] at some
      rw [leaves.sem, leaves.inside _ rfl]
      exact tracked.paired some
    · rw [leaves.inside _ rfl] at here
      rw [leaves.handle]
      exact tracked.cleared here
    · rw [leaves.inside _ rfl] at here
      rw [leaves.sem]
      exact tracked.ready here
    · rw [leaves.inside _ rfl] at here
      rw [leaves.handle]
      exact handles.keeps_joinable exclusive moved (tracked.joined here)
  · exact tracked.visitor exclusive handles moved found entered isNext

theorem tracked_reachable {allowed : System → Action → Prop} {system : System}
    (reached : Reachable step (· = constructed) allowed system) : Tracked system := by
  refine reached.invariant Tracked ?_ ?_
  · rintro _ rfl
    exact .constructed
  · intro state _ _ reachedState tracked _ taken
    exact tracked.move (exclusive_reachable reachedState) (handles_reachable reachedState)
      (step_move taken)

end DcCluster.Reconnect
