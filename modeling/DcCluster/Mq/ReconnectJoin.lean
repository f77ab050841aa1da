import DcCluster.Mq.Reconnect

/-!
The handle `m_thrdReConn` and the join of an old reconnect thread inside `ReConn`.
-/

namespace DcCluster.Reconnect

open DcCluster.Lib

@[grind] def WorkPc.beforeFinal : WorkPc → Bool
  | .clearFlag | .finalUnlock | .leaving | .exited => false
  | _ => true

theorem doReconnWork_retired {system : System} {outcome : Bool} {pc : WorkPc} {next : Step WorkPc}
    (moved : doReconnWork system outcome pc = some next) (retired : pc.retired = true) :
    next.pc.retired = true := by
  cases pc <;> grind -ring -linarith

theorem getElem?_moved_other {threads : List Thread} {index other : Nat} {thread : Thread}
    (found : threads[other]? = some thread) (differs : index ≠ other) (new : Thread)
    (started : Bool) : (threads.set index new ++ newThreads started)[other]? = some thread := by
  have bound := (List.getElem?_eq_some_iff.mp found).1
  rw [List.getElem?_append_left (by simpa using bound), List.getElem?_set_ne differs]
  exact found

/-- A reconnect thread stays at its index, and beyond a point that it does not come back
from once it is beyond it. -/
theorem Move.keeps_point {system next : System} {action : Action} (moved : Move system action next)
    {point : WorkPc → Bool}
    (final : ∀ outcome pc done, doReconnWork system outcome pc = some done →
      point pc = true → point done.pc = true)
    {index : Nat} {pc : WorkPc} (found : system.threads[index]? = some (.reconnect pc)) :
    ∃ later, next.threads[index]? = some (.reconnect later) ∧
      (point pc = true → point later = true) := by
  have bound := (List.getElem?_eq_some_iff.mp found).1
  cases moved with
  | call => exact ⟨pc, by rw [List.getElem?_append_left bound]; exact found, id⟩
  | report _ _ => exact ⟨pc, by rw [List.getElem?_append_left bound]; exact found, id⟩
  | @caller mover _ _ _ here _ =>
      refine ⟨pc, getElem?_moved_other found ?_ _ _, id⟩
      rintro rfl
      simp [found] at here
  | @visitor mover _ visitor _ _ here _ =>
      refine ⟨pc, getElem?_moved_other found ?_ _ _, id⟩
      rintro rfl
      cases visitor <;> simp [found, Visitor.thread] at here
  | @worker mover _ _ next here worked =>
      by_cases same : mover = index
      · subst mover
        obtain rfl : pc = _ := by simpa using found.symm.trans here
        refine ⟨next.pc, ?_, final _ _ _ worked⟩
        rw [List.getElem?_append_left (by simpa using bound), List.getElem?_set_self bound]
      · exact ⟨pc, getElem?_moved_other found same _ _, id⟩

theorem Move.keeps_exited {system next : System} {action : Action} (moved : Move system action next)
    {index : Nat} (found : system.threads[index]? = some (.reconnect .exited)) :
    next.threads[index]? = some (.reconnect .exited) := by
  have final (outcome : Bool) (pc : WorkPc) (done : Step WorkPc)
      (worked : doReconnWork system outcome pc = some done) (exited : (pc == .exited) = true) :
      (done.pc == .exited) = true := by
    obtain rfl := eq_of_beq exited
    simp [doReconnWork] at worked
  obtain ⟨later, there, keeps⟩ := moved.keeps_point final found
  rw [there, eq_of_beq (keeps rfl)]

theorem retired_forever {system later : System} {index : Nat} {pc : WorkPc}
    (found : system.threads[index]? = some (.reconnect pc)) (retired : pc.retired = true)
    (reached : Reachable step (· = system) anyAction later) :
    ∃ last, later.threads[index]? = some (.reconnect last) ∧ last.retired = true := by
  refine reached.invariant
    (fun state => ∃ last, state.threads[index]? = some (.reconnect last) ∧ last.retired = true)
    ?_ ?_
  · rintro _ rfl
    exact ⟨pc, found, retired⟩
  · rintro state action next _ ⟨last, here, stays⟩ _ taken
    obtain ⟨following, there, keeps⟩ :=
      (step_move taken).keeps_point (fun _ _ _ => doReconnWork_retired) here
    exact ⟨following, there, keeps stays⟩

/-- The stored handle has its reconnect thread, except while `ReConn` has not come back from
`pthread_create`, and `ReConn` waits for no other one. -/
structure Handles (system : System) : Prop where
  thread : ∀ handle, system.members.thrdReConn = some handle →
    (∃ pc, system.threadOf handle = some (.reconnect pc)) ∨
      0 < system.threads.countP (Thread.inside ReConnPc.atPthreadCreate)
  creating : 0 < system.threads.countP (Thread.inside ReConnPc.atPthreadCreate) →
    ∃ handle, system.members.thrdReConn = some handle ∧
      system.members.handles[handle]? = some none
  joining : 0 < system.threads.countP (Thread.inside ReConnPc.joining) →
    system.members.thrdReConn.isSome = true
  waits : ∀ handle, 0 < system.threads.countP (Thread.inside (ReConnPc.waitsOn handle)) →
    handle = system.members.thrdReConn

theorem System.threadOf_eq_some_iff {system : System} {handle : Nat} {thread : Thread} :
    system.threadOf handle = some thread ↔ ∃ index,
      system.members.handles[handle]? = some (some index) ∧
        system.threads[index]? = some thread := by
  unfold System.threadOf
  split
  next index found => simp [found]
  next other =>
    refine iff_of_false (by simp) ?_
    rintro ⟨index, found, _⟩
    exact other index found

theorem System.joinable_some_iff {system : System} {handle : Nat} :
    system.joinable (some handle) = true ↔
      system.threadOf handle = some (.reconnect .exited) := by
  simp only [System.joinable]
  cases system.threadOf handle with
  | none => simp
  | some thread =>
      rcases thread with pc | ⟨connection, pc⟩ | pc
      · simp [Thread.hasExited]
      · simp [Thread.hasExited]
      · cases pc <;> simp [Thread.hasExited]

/-- Until `pthread_create` comes back the stored handle has no thread. -/
theorem Handles.empty_of_creating {system : System} (handles : Handles system)
    (creating : 0 < system.threads.countP (Thread.inside ReConnPc.atPthreadCreate)) {handle : Nat}
    (isHandle : system.members.thrdReConn = some handle) :
    system.members.handles[handle]? = some none := by
  obtain ⟨fresh, isFresh, empty⟩ := handles.creating creating
  rw [isFresh, Option.some.injEq] at isHandle
  rw [← isHandle]
  exact empty

theorem Handles.bound {system : System} (handles : Handles system) {handle : Nat}
    (isHandle : system.members.thrdReConn = some handle) :
    handle < system.members.handles.length := by
  rcases handles.thread handle isHandle with ⟨pc, isThread⟩ | creating
  · obtain ⟨index, isIndex, _⟩ := System.threadOf_eq_some_iff.mp isThread
    exact (List.getElem?_eq_some_iff.mp isIndex).1
  · exact (List.getElem?_eq_some_iff.mp (handles.empty_of_creating creating isHandle)).1

/-- A `swartz_thread_t` keeps the thread that it has got. -/
theorem Handles.keeps_index {system next : System} {action : Action} (handles : Handles system)
    (exclusive : Exclusive system) (moved : Move system action next) {handle index : Nat}
    (found : system.members.handles[handle]? = some (some index)) :
    next.members.handles[handle]? = some (some index) := by
  have bound := (List.getElem?_eq_some_iff.mp found).1
  rcases exclusive.leavesReConn_or_visitor moved with
    leaves | ⟨_, _, visitor, pc, done, rfl, there, entered, rfl⟩
  · rw [leaves.handles]
    exact found
  · dsimp only
    rcases reConn_handle entered with ⟨same, _⟩ | ⟨_, _, _, _, extends_⟩ |
      ⟨rfl, _, _, _, _, current, isHandle, sets⟩
    · rw [same]
      exact found
    · rw [extends_, List.getElem?_append_left bound]
      exact found
    · have creating : 0 < system.threads.countP (Thread.inside ReConnPc.atPthreadCreate) :=
        countP_pos_of_found _ there (by simp [ReConnPc.atPthreadCreate])
      have empty := handles.empty_of_creating creating isHandle
      have differs : current ≠ handle := by
        rintro rfl
        simp [found] at empty
      rw [sets, List.getElem?_set_ne differs]
      exact found

/-- What a handle refers to stays a reconnect thread, beyond any point that it does not come
back from. -/
theorem Handles.keeps_thread {system next : System} {action : Action} (handles : Handles system)
    (exclusive : Exclusive system) (moved : Move system action next) {point : WorkPc → Bool}
    (final : ∀ outcome pc done, doReconnWork system outcome pc = some done →
      point pc = true → point done.pc = true)
    {handle : Nat} {pc : WorkPc} (found : system.threadOf handle = some (.reconnect pc)) :
    ∃ later, next.threadOf handle = some (.reconnect later) ∧
      (point pc = true → point later = true) := by
  obtain ⟨index, isIndex, there⟩ := System.threadOf_eq_some_iff.mp found
  obtain ⟨later, stays, keeps⟩ := moved.keeps_point final there
  exact ⟨later, System.threadOf_eq_some_iff.mpr
    ⟨index, handles.keeps_index exclusive moved isIndex, stays⟩, keeps⟩

theorem Handles.keeps_joinable {system next : System} {action : Action}
    (handles : Handles system) (exclusive : Exclusive system) (moved : Move system action next)
    {handle : Option Nat} (joinable : system.joinable handle = true) :
    next.joinable handle = true := by
  cases handle with
  | none => rfl
  | some handle =>
      rw [System.joinable_some_iff] at joinable ⊢
      obtain ⟨index, isIndex, there⟩ := System.threadOf_eq_some_iff.mp joinable
      exact System.threadOf_eq_some_iff.mpr
        ⟨index, handles.keeps_index exclusive moved isIndex, moved.keeps_exited there⟩

theorem inside_holdsLock {point : ReConnPc → Bool}
    (holds : ∀ pc, point pc = true → pc.holdsLock = true) (thread : Thread) :
    (thread.inside point).toNat + (thread.working WorkPc.locked).toNat ≤ thread.holdsLock.toNat := by
  have weaker (pc : ReConnPc) : (point pc).toNat ≤ pc.holdsLock.toNat := by
    cases here : point pc with
    | false => simp
    | true => simp [holds pc here]
  rcases thread with (pc | pc | _) | ⟨connection, pc | _⟩ | pc
  · simp [Thread.inside, CallerPc.inside, Thread.working]
  · simpa [Thread.inside, CallerPc.inside, Thread.working, Thread.holdsLock] using weaker pc
  · simp [Thread.inside, CallerPc.inside, Thread.working]
  · simpa [Thread.inside, CallbackPc.inside, Thread.working, Thread.holdsLock] using weaker pc
  · simp [Thread.inside, CallbackPc.inside, Thread.working]
  · cases pc with
    | reConn pc =>
        simpa [Thread.inside, WorkPc.inside, Thread.working, Thread.holdsLock, WorkPc.locked]
          using weaker pc
    | _ => simp [Thread.inside, WorkPc.inside, Thread.working, Thread.holdsLock]

theorem ReConnPc.holdsLock_of_deciding (pc : ReConnPc) (decides : pc.deciding = true) :
    pc.holdsLock = true := by
  cases pc with
  | lock => cases decides
  | _ => rfl

theorem Handles.thread_kept {system next : System} {action : Action} (handles : Handles system)
    (exclusive : Exclusive system) (moved : Move system action next) {handle : Nat}
    (same : next.members.thrdReConn = system.members.thrdReConn)
    (idle : system.threads.countP (Thread.inside ReConnPc.atPthreadCreate) = 0)
    (isHandle : next.members.thrdReConn = some handle) :
    ∃ pc, next.threadOf handle = some (.reconnect pc) := by
  rw [same] at isHandle
  rcases handles.thread handle isHandle with ⟨pc, there⟩ | creating
  · obtain ⟨later, stays, _⟩ := handles.keeps_thread exclusive moved
      (fun _ _ _ => doReconnWork_retired) there
    exact ⟨later, stays⟩
  · omega

theorem Handles.visitor {system next : System} (handles : Handles system)
    (exclusive : Exclusive system) {index : Nat} {outcome : Bool} {visitor : Visitor}
    {pc : ReConnPc} {done : Step (Option ReConnPc)}
    (moved : Move system (.thread index outcome) next)
    (found : system.threads[index]? = some (visitor.thread (some pc)))
    (entered : reConn system outcome pc = some done)
    (isNext : next = { members := done.members
                       threads := system.threads.set index (visitor.thread done.pc) ++
                         newThreads done.started }) : Handles next := by
  have counts {point : ReConnPc → Bool} (past : point .lock = false) :
      (0 < system.threads.countP (Thread.inside point) ↔ point pc = true) ∧
        (0 < next.threads.countP (Thread.inside point) ↔ done.pc.any point = true) := by
    rw [isNext]
    exact exclusive.visitor_counts found entered past
  have sameMembers : next.members = done.members := congrArg System.members isNext
  refine ⟨fun handle isHandle => ?_, fun creates => ?_, fun joins => ?_, fun handle waits => ?_⟩
  · rcases reConn_handle entered with ⟨_, _, _, ⟨same, away⟩ | ⟨cleared, _⟩⟩ |
      ⟨_, reached, _⟩ | ⟨rfl, _, _, started, same, stored, isStored, sets⟩
    · refine .inl (handles.thread_kept exclusive moved (by rw [sameMembers, same]) ?_ isHandle)
      by_contra creating
      have here := (counts rfl).1.mp (Nat.pos_of_ne_zero creating)
      simp [away] at here
    · rw [sameMembers, cleared] at isHandle
      cases isHandle
    · exact .inr ((counts rfl).2.mpr (by simp [reached, ReConnPc.atPthreadCreate]))
    · rw [sameMembers, same, isStored, Option.some.injEq] at isHandle
      have empty := handles.empty_of_creating ((counts rfl).1.mpr rfl) isStored
      subst handle
      have bound := (List.getElem?_eq_some_iff.mp empty).1
      refine .inl ⟨.setFlag, System.threadOf_eq_some_iff.mpr ⟨system.threads.length, ?_, ?_⟩⟩
      · rw [sameMembers, sets, List.getElem?_set_self bound]
      · rw [isNext]
        simp [started, newThreads]
  · have reaches := (counts rfl).2.mp creates
    rcases reConn_handle entered with ⟨_, _, away, _⟩ | ⟨_, _, _, stored, sets⟩ |
      ⟨_, _, reached, _⟩
    · rw [away] at reaches
      cases reaches
    · exact ⟨_, by rw [sameMembers, stored], by rw [sameMembers, sets]; simp⟩
    · rw [reached] at reaches
      cases reaches
  · obtain ⟨same, wasJoining | isSome⟩ := reConn_joining entered ((counts rfl).2.mp joins)
    · rw [sameMembers, same]
      exact handles.joining ((counts rfl).1.mpr wasJoining)
    · rw [sameMembers, same]
      exact isSome
  · obtain ⟨_, isHandle, same⟩ := reConn_waits entered ((counts rfl).2.mp waits)
    rw [sameMembers, same]
    exact isHandle

theorem Handles.move {system next : System} {action : Action} (handles : Handles system)
    (exclusive : Exclusive system) (moved : Move system action next) : Handles next := by
  rcases exclusive.leavesReConn_or_visitor moved with
    leaves | ⟨_, _, visitor, _, _, rfl, found, entered, isNext⟩
  · have pthreads := leaves.inside ReConnPc.atPthreadCreate rfl
    refine ⟨fun handle isHandle => ?_, fun creates => ?_, fun joiners => ?_, fun handle waits => ?_⟩
    · rw [pthreads]
      by_cases creating : system.threads.countP (Thread.inside ReConnPc.atPthreadCreate) = 0
      · exact .inl (handles.thread_kept exclusive moved leaves.handle creating isHandle)
      · exact .inr (Nat.pos_of_ne_zero creating)
    · rw [pthreads] at creates
      rw [leaves.handle, leaves.handles]
      exact handles.creating creates
    · rw [leaves.inside _ rfl] at joiners
      rw [leaves.handle]
      exact handles.joining joiners
    · rw [leaves.inside _ rfl] at waits
      rw [leaves.handle]
      exact handles.waits handle waits
  · exact handles.visitor exclusive moved found entered isNext

theorem handles_reachable {allowed : System → Action → Prop} {system : System}
    (reached : Reachable step (· = constructed) allowed system) : Handles system := by
  refine reached.invariant Handles ?_ ?_
  · rintro _ rfl
    exact ⟨fun _ isHandle => by simp [constructed] at isHandle,
      fun creates => by simp [constructed] at creates,
      fun joiners => by simp [constructed] at joiners, fun _ waits => by simp [constructed] at waits⟩
  · intro state _ _ reachedState handles _ taken
    exact handles.move (exclusive_reachable reachedState) (step_move taken)

/-- What `ReConn` and `DoReconnWork` rely on. A thread at `setFlag` has created the
reconnect thread and still holds the lock. -/
structure ReconnectSafe (system : System) : Prop where
  single : system.threads.countP (Thread.working WorkPc.beforeFinal) ≤ 1
  flag : (∃ thread ∈ system.threads, thread.working WorkPc.beforeFinal = true) →
    system.members.bReConn = true ∨
      ∃ creator ∈ system.threads, creator.inside ReConnPc.settingFlag = true ∧
        creator.holdsLock = true
  join : ∀ thread ∈ system.threads, thread.inside ReConnPc.joining = true →
    system.members.lockReConn = true ∧
      ∃ joined index, system.members.thrdReConn = some joined ∧
        system.members.handles[joined]? = some (some index) ∧
        (∀ handle, thread.inside (ReConnPc.waitsOn handle) = true → handle = some joined) ∧
        ∀ later, Reachable step (· = system) anyAction later →
          ∃ pc, later.threads[index]? = some (.reconnect pc) ∧ pc.retired = true

theorem deciding_of_joining (thread : Thread) (joins : thread.inside ReConnPc.joining = true) :
    thread.inside ReConnPc.deciding = true := by
  have decides (pc : ReConnPc) : pc.joining = true → pc.deciding = true := by
    cases pc <;> simp [ReConnPc.joining, ReConnPc.deciding]
  exact Thread.inside_mono decides thread joins

theorem active_of_beforeFinal (thread : Thread)
    (before : thread.working WorkPc.beforeFinal = true) : thread.working WorkPc.active = true := by
  cases thread with
  | reconnect pc => cases pc <;> simp_all [Thread.working, WorkPc.beforeFinal, WorkPc.active]
  | _ => cases before

theorem retired_of_deciding {system : System} (exclusive : Exclusive system) {index : Nat}
    {pc : WorkPc} (found : system.threads[index]? = some (.reconnect pc))
    (decides : 0 < system.threads.countP (Thread.inside ReConnPc.deciding)) :
    pc.retired = true := by
  -- The thread that decides holds the lock and finds no reconnect thread active, so this one
  -- has cleared the flag and has left its final critical section.
  have ⟨mutex, _, _, _, deciding, _, _⟩ := exclusive
  have inactive : pc.active = false := by
    have none : system.threads.countP (Thread.working WorkPc.active) = 0 := by omega
    exact countP_eq_zero_iff_none.mp none _ (List.mem_of_getElem? found)
  have unlocked : pc.locked = false := by
    have apart := countP_add_le (inside_holdsLock ReConnPc.holdsLock_of_deciding) system.threads
    have here := toNat_le_countP (Thread.working WorkPc.locked) found
    have bound := Bool.toNat_le system.members.lockReConn
    cases locked : pc.locked with
    | false => rfl
    | true =>
        simp only [Thread.working, locked, Bool.toNat_true] at here
        omega
  cases pc <;> simp_all [WorkPc.active, WorkPc.locked, WorkPc.retired]

/-- In every run without `DisConn` at most one reconnect thread is before its final
critical section, the flag is set while it is, and `ReConn` only joins a thread that
will neither lock nor wait again. -/
theorem reconnectSafe_reachable {system : System}
    (reached : Reachable step (· = constructed) anyAction system) : ReconnectSafe system := by
  have exclusive := exclusive_reachable reached
  have handles := handles_reachable reached
  refine ⟨?_, ?_, ?_⟩
  · exact Nat.le_trans (List.countP_mono_left fun thread _ => active_of_beforeFinal thread)
      exclusive.single
  · rintro ⟨thread, member, before⟩
    have active : 0 < system.threads.countP (Thread.working WorkPc.active) :=
      List.countP_pos_iff.mpr ⟨thread, member, active_of_beforeFinal thread before⟩
    have flag := exclusive.flag
    cases raised : system.members.bReConn with
    | true => exact .inl rfl
    | false =>
        simp only [raised, Bool.toNat_false, Nat.zero_add] at flag
        obtain ⟨creator, inThreads, sets⟩ := List.countP_pos_iff.mp (Nat.lt_of_lt_of_le active flag)
        exact .inr ⟨creator, inThreads, sets,
          holdsLock_of_inside (by rfl) creator sets⟩
  · intro thread member joins
    have locks := holdsLock_of_inside (by rfl) thread joins
    obtain ⟨index, found⟩ := List.mem_iff_getElem?.mp member
    refine ⟨exclusive.locked found locks, ?_⟩
    have joiners : 0 < system.threads.countP (Thread.inside ReConnPc.joining) :=
      List.countP_pos_iff.mpr ⟨thread, member, joins⟩
    obtain ⟨joined, isHandle⟩ := Option.isSome_iff_exists.mp (handles.joining joiners)
    have apart := @inside_apart ReConnPc.joining ReConnPc.atPthreadCreate
      (fun pc => by
        cases pc <;>
          simp [ReConnPc.joining, ReConnPc.atPthreadCreate, ReConnPc.holdsLock]) system.threads
    have mutex := exclusive.mutex
    have bound := Bool.toNat_le system.members.lockReConn
    obtain ⟨pc, isThread⟩ := (handles.thread joined isHandle).resolve_right (by omega)
    obtain ⟨index, isIndex, foundJoined⟩ := System.threadOf_eq_some_iff.mp isThread
    have deciders : 0 < system.threads.countP (Thread.inside ReConnPc.deciding) :=
      Nat.lt_of_lt_of_le joiners (List.countP_mono_left fun other _ => deciding_of_joining other)
    have retired := retired_of_deciding exclusive foundJoined deciders
    refine ⟨joined, index, isHandle, isIndex, fun handle waits => ?_,
      fun later => retired_forever foundJoined retired⟩
    rw [handles.waits handle (List.countP_pos_iff.mpr ⟨thread, member, waits⟩), isHandle]

/-- A connection fails, is replaced, and fails again; the second callback has destroyed
the semaphore of the first reconnect thread and is about to join it. -/
def secondFailure : List Action :=
  .callConn :: List.replicate 4 (.thread 0 true) ++
    .onException :: List.replicate 8 (.thread 1 true) ++ List.replicate 15 (.thread 2 true) ++
    .onException :: List.replicate 7 (.thread 3 true)

theorem reconnectSafe_reachable_secondFailure :
    ∃ system, run step constructed secondFailure = some system ∧
      system.threads[3]? = some (.callback 1 (.reConn (.join (some 0)))) ∧
      system.threadOf 0 = some (.reconnect .exited) ∧ ReconnectSafe system := by
  have reached : Reachable step (· = constructed) anyAction
      ((run step constructed secondFailure).get (by decide)) :=
    .append_run (.start rfl) (permitted_anyAction _ _ secondFailure) (Option.some_get _).symm
  exact ⟨(run step constructed secondFailure).get (by decide), (Option.some_get _).symm, by decide,
    by decide, reconnectSafe_reachable reached⟩

end DcCluster.Reconnect
