import DcCluster.Mq.DisConnCore

/-!
What `DisConn` waits for. Nobody posts `m_sem` for it: `ReConn` does so for a thread that
has already left its loop, and `DisConn` not at all. So its `swartz_thread_wait` is sure
to end only if it begins after the reconnect thread has left the loop.
-/

namespace DcCluster.DisConn

open DcCluster.Lib
open DcCluster.Reconnect

/-- There is a reconnect thread that `DisConn` waits for, and it has left the loop of
`DoReconnWork`, or `m_sem` holds a token for it. -/
def Signalled (state : State) : Prop :=
  ∀ handle, state.disConn = .wait (some handle) →
    ∃ pc, state.system.threadOf handle = some (.reconnect pc) ∧
      (pc.leftLoop = true ∨ 0 < state.system.members.tokensOf state.system.members.sem)

/-- `DisConn` calls `swartz_thread_wait` only when no reconnect thread is in its loop, and no
`ReConn` is about to create the one of a handle that is already stored. -/
def joinsLeaver (state : State) (action : Action) : Prop :=
  action = .disConn → state.disConn = .readThrd →
    (∀ thread ∈ state.system.threads, thread.looping = false) ∧
      state.system.threads.countP (Thread.inside ReConnPc.atPthreadCreate) = 0

def DisConnPc.untilJoined : DisConnPc → Bool
  | .idle | .testThrd | .readThrd | .wait _ => true
  | _ => false

/-- Up to its wait `DisConn` only reads, so the connection is in a state that it can
reach without it. -/
def Undisturbed (state : State) : Prop :=
  state.disConn.untilJoined = true →
    Reachable Reconnect.step (· = constructed) anyAction state.system

theorem undisturbed_start (listProducer listConsumer : List Nat) :
    Undisturbed (start listProducer listConsumer) := fun _ => .start rfl

/-- What an action of the composed system does: one of the connection's own, the call of
`DisConn`, or a statement of it. -/
theorem step_mq {state next : State} {action : Reconnect.Action}
    (taken : step state (.mq action) = some next) :
    (action = .callConn → state.disConn = .idle) ∧
      ∃ system, Reconnect.step state.system action = some system ∧
        next = { state with
          system := system, joins := state.joins ++ joinedBy state.system action } := by
  simp only [step] at taken
  split at taken
  · simp at taken
  · rename_i permitted
    obtain ⟨system, stepped, rfl⟩ := Option.map_eq_some_iff.mp taken
    exact ⟨fun calls => by simpa [calls] using permitted, system, stepped, rfl⟩

theorem step_call {state next : State} (taken : step state .call = some next) :
    state.disConn = .idle ∧ (∀ thread ∈ state.system.threads, thread.callDone = true) ∧
      next = { state with disConn := .testThrd } := by
  simp only [step] at taken
  split at taken
  · rename_i ready
    simp only [Option.some.injEq] at taken
    exact ⟨ready.1, List.all_eq_true.mp ready.2, taken.symm⟩
  · simp at taken

theorem disConn_reads {state next : State} (taken : disConn state = some next)
    (before : next.disConn.untilJoined = true) :
    next.system = state.system ∧ state.disConn.untilJoined = true ∧
      (next.disConn = .readThrd ∨
        state.disConn = .readThrd ∧ next.disConn = .wait state.system.members.thrdReConn) := by
  cases here : state.disConn with
  | testThrd =>
      simp only [disConn, here, Option.some.injEq] at taken
      subst next
      cases known : state.system.members.thrdReConn.isSome with
      | false => simp [known, DisConnPc.untilJoined] at before
      | true => exact ⟨rfl, rfl, .inl (by simp)⟩
  | readThrd =>
      simp only [disConn, here, Option.some.injEq] at taken
      subst next
      exact ⟨rfl, rfl, .inr ⟨rfl, rfl⟩⟩
  | wait handle =>
      simp only [disConn, here, Option.ite_none_right_eq_some, Option.some.injEq] at taken
      obtain ⟨_, rfl⟩ := taken
      cases before
  | destroyLock | listLock =>
      simp only [disConn, here, Option.map_eq_some_iff] at taken
      obtain ⟨_, _, rfl⟩ := taken
      cases before
  | idle | returned => simp [disConn, here] at taken
  | clearThrd | destroy | destroyUnlock | clearLists | listUnlock =>
      simp only [disConn, here, Option.some.injEq] at taken
      subst next
      cases before

theorem Undisturbed.step {state next : State} {action : Action} (undisturbed : Undisturbed state)
    (taken : step state action = some next) : Undisturbed next := by
  intro before
  cases action with
  | mq action =>
      obtain ⟨_, system, stepped, rfl⟩ := step_mq taken
      exact .step (undisturbed before) trivial stepped
  | call =>
      obtain ⟨idle, _, rfl⟩ := step_call taken
      exact undisturbed (by rw [idle]; rfl)
  | disConn =>
      obtain ⟨same, wasBefore, _⟩ := disConn_reads taken before
      rw [same]
      exact undisturbed wasBefore

theorem active_of_looping {thread : Thread} (loops : thread.looping = true) :
    thread.working WorkPc.active = true := by
  cases thread with
  | reconnect pc =>
      cases pc <;> simp_all [Thread.looping, Thread.working, WorkPc.leftLoop, WorkPc.active]
  | _ => cases loops

theorem alive_of_looping {thread : Thread} (loops : thread.looping = true) : thread.alive = true := by
  cases thread with
  | reconnect pc =>
      cases pc <;> simp_all [Thread.looping, Thread.working, WorkPc.leftLoop, Thread.alive]
  | _ => cases loops

/-- While a reconnect thread is in its loop, nobody has posted `m_sem`. -/
theorem not_looping_of_token {system : System}
    (reached : Reachable Reconnect.step (· = constructed) anyAction system)
    (token : 0 < system.members.tokensOf system.members.sem) {thread : Thread}
    (member : thread ∈ system.threads) : thread.looping = false := by
  by_contra loops
  simp only [Bool.not_eq_false] at loops
  have active : 0 < system.threads.countP (Thread.working WorkPc.active) :=
    List.countP_pos_iff.mpr ⟨thread, member, active_of_looping loops⟩
  have none := (quiet_reachable reached).tokens (by omega)
  omega

theorem leftLoop_of_not_looping {pc : WorkPc} (leaves : (Thread.reconnect pc).looping = false) :
    pc.leftLoop = true := by
  simpa [Thread.looping, Thread.working] using leaves

theorem doReconnWork_leftLoop {system : System} {outcome : Bool} {pc : WorkPc} {next : Step WorkPc}
    (moved : doReconnWork system outcome pc = some next) (left : pc.leftLoop = true) :
    next.pc.leftLoop = true := by
  cases pc <;> grind -ring -linarith

theorem signalled_mq {state next : State} {action : Reconnect.Action}
    (undisturbed : Undisturbed state) (signalled : Signalled state)
    (taken : step state (.mq action) = some next) : Signalled next := by
  obtain ⟨_, system, stepped, rfl⟩ := step_mq taken
  intro handle waits
  have reached := undisturbed (by rw [waits]; rfl)
  obtain ⟨pc, found, signal⟩ := signalled handle waits
  have left : pc.leftLoop = true := by
    rcases signal with left | token
    · exact left
    · obtain ⟨index, _, there⟩ := System.threadOf_eq_some_iff.mp found
      exact leftLoop_of_not_looping
        (not_looping_of_token reached token (List.mem_of_getElem? there))
  obtain ⟨later, there, keeps⟩ := (handles_reachable reached).keeps_thread
    (exclusive_reachable reached) (step_move stepped) (fun _ _ _ => doReconnWork_leftLoop) found
  exact ⟨later, there, .inl (keeps left)⟩

theorem signalled_wait_iff {system : System}
    (reached : Reachable Reconnect.step (· = constructed) anyAction system) :
    (∀ handle, system.members.thrdReConn = some handle →
      ∃ pc, system.threadOf handle = some (.reconnect pc) ∧
        (pc.leftLoop = true ∨ 0 < system.members.tokensOf system.members.sem)) ↔
      (∀ thread ∈ system.threads, thread.looping = false) ∧
        system.threads.countP (Thread.inside ReConnPc.atPthreadCreate) = 0 := by
  have handles := handles_reachable reached
  constructor
  · refine fun signalled => ⟨fun thread member => ?_, ?_⟩
    · by_contra loops
      simp only [Bool.not_eq_false] at loops
      obtain ⟨index, found⟩ := List.mem_iff_getElem?.mp member
      obtain ⟨handle, isHandle, isIndex⟩ :=
        (tracked_reachable reached).alive index thread found (alive_of_looping loops)
      obtain ⟨pc, isThread, left | token⟩ := signalled handle isHandle
      · rw [System.threadOf_eq_some_iff.mpr ⟨index, isIndex, found⟩, Option.some.injEq] at isThread
        simp [isThread, Thread.looping, Thread.working, left] at loops
      · simp [not_looping_of_token reached token member] at loops
    · by_contra creating
      obtain ⟨handle, isHandle, empty⟩ := handles.creating (Nat.pos_of_ne_zero creating)
      obtain ⟨pc, isThread, _⟩ := signalled handle isHandle
      obtain ⟨index, isIndex, _⟩ := System.threadOf_eq_some_iff.mp isThread
      simp [empty] at isIndex
  · rintro ⟨leaves, idle⟩ handle isHandle
    obtain ⟨pc, found⟩ := (handles.thread handle isHandle).resolve_right (by omega)
    obtain ⟨index, _, there⟩ := System.threadOf_eq_some_iff.mp found
    exact ⟨pc, found, .inl (leftLoop_of_not_looping (leaves _ (List.mem_of_getElem? there)))⟩

theorem signalled_disConn_iff {state next : State} (undisturbed : Undisturbed state)
    (taken : step state .disConn = some next) : Signalled next ↔ joinsLeaver state .disConn := by
  by_cases reads : state.disConn = .readThrd
  · have reached := undisturbed (by rw [reads]; rfl)
    have isNext : next = { state with
        disConn := .wait state.system.members.thrdReConn
        joins := state.joins ++ state.system.members.thrdReConn.toList } := by
      simpa [step, disConn, reads] using taken.symm
    have decided := signalled_wait_iff reached
    simpa [Signalled, joinsLeaver, isNext, reads] using decided
  · refine ⟨fun _ _ here => absurd here reads, fun _ handle waits => ?_⟩
    obtain ⟨_, _, again | ⟨here, _⟩⟩ := disConn_reads taken (by rw [waits]; rfl)
    · rw [waits] at again
      cases again
    · exact absurd here reads

/-- Along any run of the connection with `DisConn`, whatever the attempts to connect end in,
every state in which `DisConn` waits is signalled exactly when `DisConn` never begins to
wait while a reconnect thread is in its loop or about to be created. -/
theorem signalled_iff_joinsLeaver (listProducer listConsumer : List Nat) (actions : List Action) :
    HoldsAlong step Signalled (start listProducer listConsumer) actions ↔
      Permitted step joinsLeaver (start listProducer listConsumer) actions := by
  refine holdsAlong_iff_permitted (fun _ _ _ => Undisturbed.step) ?_ ?_
    (undisturbed_start listProducer listConsumer) (fun _ waits => by cases waits) actions
  · intro state action next undisturbed signalled taken
    cases action with
    | mq action =>
        exact iff_of_true (signalled_mq undisturbed signalled taken) (fun isDisConn => by
          cases isDisConn)
    | call =>
        obtain ⟨_, _, rfl⟩ := step_call taken
        exact iff_of_true (fun _ waits => by cases waits) (fun isDisConn => by cases isDisConn)
    | disConn => exact signalled_disConn_iff undisturbed taken
  · rintro state action blocked rfl reads
    simp [step, disConn, reads] at blocked

/-- `Conn` fails and starts a reconnect thread. Its first attempt fails as well, and
`DisConn` is called while it waits for the next one. -/
def brokerDown : List Action :=
  .mq .callConn :: .mq (.thread 0 false) :: List.replicate 9 (.mq (.thread 0 true)) ++
    List.replicate 4 (.mq (.thread 1 true)) ++ .mq (.thread 1 false) ::
    List.replicate 2 (.mq (.thread 1 true)) ++ [.call, .disConn, .disConn]

def failedAttempt : List Action :=
  .mq (.thread 1 false) :: List.replicate 3 (.mq (.thread 1 true)) ++ .mq (.thread 1 false) ::
    List.replicate 2 (.mq (.thread 1 true))

theorem brokerDown_finishes : (run step (start [] []) brokerDown).isSome = true := by
  decide +kernel

def waitingForBroker : State := (run step (start [] []) brokerDown).get brokerDown_finishes

/-- Every further attempt that fails leads back to the same state. -/
theorem brokerDown_waits_unsignalled :
    Reachable step (· = start [] []) anyAction waitingForBroker ∧
      waitingForBroker.disConn = .wait (some 0) ∧
      run step waitingForBroker failedAttempt = some waitingForBroker ∧
      ¬Signalled waitingForBroker := by
  have reached : Reachable step (· = start [] []) anyAction waitingForBroker :=
    .append_run (.start rfl) (permitted_anyAction _ _ brokerDown) (Option.some_get _).symm
  have waits : waitingForBroker.disConn = .wait (some 0) := by decide +kernel
  refine ⟨reached, waits, by decide +kernel, fun signalled => ?_⟩
  obtain ⟨pc, found, left | token⟩ := signalled 0 waits
  · have loops : waitingForBroker.system.threadOf 0 = some (.reconnect (.semWait (some 0))) := by
      decide +kernel
    obtain rfl : pc = .semWait (some 0) := by simpa using found.symm.trans loops
    cases left
  · revert token
    decide +kernel

end DcCluster.DisConn
