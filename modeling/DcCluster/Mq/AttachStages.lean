import DcCluster.Mq.AttachCore

/-!
The stages of a reconnect and the session that a connection has in them. At most one
reconnect thread is active, so the stage is a function of the state.
-/

namespace DcCluster.Attach

open DcCluster.Lib
open DcCluster.Mq
open DcCluster.Reconnect

/-- `destroying` and `rebuilding` are the critical sections of `DestroyConn` and
`ReBuildConn`, `online` is the time between the new session and the second of them. -/
inductive Stage
  | idle
  | destroying
  | offline
  | online
  | rebuilding
  | rebuilt
  deriving DecidableEq, Repr

@[grind] def stageOf : WorkPc → Stage
  | .destroy => .destroying
  | .destroyUnlock | .conn _ | .reConn _ | .readSem | .semWait _ => .offline
  | .rebuildLock => .online
  | .rebuild => .rebuilding
  | .rebuildUnlock => .rebuilt
  | _ => .idle

def threadStage : Thread → Option Stage
  | .reconnect pc => if stageOf pc = .idle then none else some (stageOf pc)
  | _ => none

def stage (system : System) : Stage := (system.threads.findSome? threadStage).getD .idle

theorem active_of_threadStage {thread : Thread} (staged : threadStage thread ≠ none) :
    thread.working WorkPc.active = true := by
  cases thread with
  | reconnect pc => cases pc <;> simp_all [threadStage, stageOf, Thread.working, WorkPc.active]
  | _ => simp [threadStage] at staged

@[simp] theorem threadStage_visitor (visitor : Visitor) (pc : Option ReConnPc) :
    threadStage (visitor.thread pc) = none := by
  cases visitor <;> rfl

theorem threadStage_getD (pc : WorkPc) : (threadStage (.reconnect pc)).getD .idle = stageOf pc := by
  simp only [threadStage]
  split
  · next isIdle => simp [isIdle]
  · rfl

theorem stage_set_append {system : System} {index : Nat} {old new : Thread} {members : Members}
    {started : Bool} (found : system.threads[index]? = some old) (before : threadStage old = none)
    (after : threadStage new = none) :
    stage { members := members, threads := system.threads.set index new ++ newThreads started } =
      stage system := by
  have fresh : (newThreads started).findSome? threadStage = none := by
    cases started <;> rfl
  simp only [stage, List.findSome?_append, fresh, Option.or_none,
    findSome?_set_of_none found before after]

theorem stage_active {system : System} (exclusive : Exclusive system) {index : Nat} {pc : WorkPc}
    (found : system.threads[index]? = some (.reconnect pc)) (active : pc.active = true) :
    stage system = stageOf pc ∧ ∀ members later,
      stage { members := members, threads := system.threads.set index (.reconnect later) } =
        stageOf later := by
  have alone (other : Nat) (thread : Thread) (there : system.threads[other]? = some thread)
      (differs : other ≠ index) : threadStage thread = none := by
    by_contra staged
    exact differs (eq_of_countP_le_one found exclusive.single active there
      (active_of_threadStage staged))
  have bound := (List.getElem?_eq_some_iff.mp found).1
  refine ⟨?_, fun members later => ?_⟩
  · rw [stage, findSome?_eq_of_alone found alone, threadStage_getD]
  · rw [stage, findSome?_eq_of_alone (List.getElem?_set_self bound) ?_, threadStage_getD]
    intro other thread there differs
    rw [List.getElem?_set_ne (Ne.symm differs)] at there
    exact alone other thread there differs

section Local

variable {system : System} {outcome : Bool}

theorem conn_session {members : Members} {pc : ConnPc} {next : Step (ConnPc ⊕ ConnResult)}
    (moved : conn members outcome pc = some next) :
    next.pc = .inr .connected ∧ next.members.session.isSome = true ∨
      next.pc ≠ .inr .connected ∧ next.members.session = members.session := by
  cases pc with
  | createSession =>
      cases current : members.connection with
      | none => simp [conn, current] at moved
      | some connection => grind -ring -linarith
  | _ => grind -ring -linarith

/-- Where a statement of an active reconnect thread leads: it stays in its stage, or it
enters the next one. -/
inductive StageStep (system : System) : WorkPc → Step WorkPc → Prop
  | stays {pc : WorkPc} {next : Step WorkPc} : stageOf next.pc = stageOf pc →
      next.members.session = system.members.session → stageOf pc ≠ .online →
      stageOf pc ≠ .destroying → stageOf pc ≠ .rebuilding → pc ≠ .destroyLock →
      StageStep system pc next
  | destroys {next : Step WorkPc} : next.pc = .destroy →
      next.members.session = system.members.session → StageStep system .destroyLock next
  | disconnects {next : Step WorkPc} : stageOf next.pc = .offline →
      next.members.session = none → StageStep system .destroy next
  | connects {pc : ConnPc} {next : Step WorkPc} : stageOf next.pc = .online →
      next.members.session.isSome = true → StageStep system (.conn pc) next
  | retries {sem : Option Nat} {next : Step WorkPc} : stageOf next.pc = .idle →
      next.members.session = system.members.session → StageStep system (.semWait sem) next
  | rebuilds {next : Step WorkPc} : next.pc = .rebuild →
      next.members.session = system.members.session → StageStep system .rebuildLock next
  | attaches {next : Step WorkPc} : stageOf next.pc = .rebuilt →
      next.members.session = system.members.session → StageStep system .rebuild next
  | finishes {next : Step WorkPc} : stageOf next.pc = .idle →
      next.members.session = system.members.session → StageStep system .rebuildUnlock next

theorem doReconnWork_stage {pc : WorkPc} {next : Step WorkPc}
    (moved : doReconnWork system outcome pc = some next) (outside : pc.selfCall = false) :
    StageStep system pc next := by
  cases pc with
  | conn pc =>
      simp only [doReconnWork, Option.map_eq_some_iff] at moved
      obtain ⟨inner, connected, rfl⟩ := moved
      rcases conn_session connected with ⟨isConnected, isSome⟩ | ⟨notYet, same⟩
      · exact .connects (by rw [isConnected]; rfl) isSome
      · refine .stays ?_ same (by simp [stageOf]) (by simp [stageOf]) (by simp [stageOf]) (by simp)
        rcases reached : inner.pc with later | _ | _ | _
        · rfl
        · exact absurd reached notYet
        · rfl
        · rfl
  | reConn pc => cases outside
  | destroyLock => exact .destroys (by grind -ring -linarith) (by grind -ring -linarith)
  | destroy => exact .disconnects (by grind -ring -linarith) (by grind -ring -linarith)
  | semWait sem => exact .retries (by grind -ring -linarith) (by grind -ring -linarith)
  | rebuildLock => exact .rebuilds (by grind -ring -linarith) (by grind -ring -linarith)
  | rebuild => exact .attaches (by grind -ring -linarith) (by grind -ring -linarith)
  | rebuildUnlock => exact .finishes (by grind -ring -linarith) (by grind -ring -linarith)
  | exited => cases moved
  | setFlag | destroyUnlock | readSem | finalLock | clearFlag | finalUnlock | leaving =>
      exact .stays (by grind -ring -linarith) (by grind -ring -linarith) (by decide) (by decide) (by decide) (by decide)

end Local

/-- An action either is a statement of the active reconnect thread or leaves the stage as
it is; then only a call of `Conn` that is still in progress can store a session. -/
theorem move_stage {system next : System} {action : Reconnect.Action}
    (exclusive : Exclusive system) (moved : Move system action next) :
    (∃ index outcome pc done, action = .thread index outcome ∧
        system.threads[index]? = some (.reconnect pc) ∧ StageStep system pc done ∧
        stage system = stageOf pc ∧ stage next = stageOf done.pc ∧ next.members = done.members) ∨
      stage next = stage system ∧ entered system action = none ∧
        inSection system action = false ∧
        (next.members.session = system.members.session ∨
          next.members.session.isSome = true ∧ ∃ thread ∈ system.threads, thread.callDone = false) := by
  cases moved with
  | call => exact .inr ⟨by simp [stage, threadStage], rfl, rfl, .inl rfl⟩
  | report _ _ => exact .inr ⟨by simp [stage, threadStage], rfl, rfl, .inl rfl⟩
  | caller found connected =>
      refine .inr ⟨stage_set_append found rfl rfl, by simp [entered, found],
        by simp [inSection, found], ?_⟩
      rcases conn_session connected with ⟨_, isSome⟩ | ⟨_, same⟩
      · exact .inr ⟨isSome, _, List.mem_of_getElem? found, rfl⟩
      · exact .inl same
  | @visitor _ _ visitor _ _ found entersReConn =>
      refine .inr ⟨stage_set_append found (by simp) (by simp), ?_, ?_,
        .inl (reConn_session entersReConn)⟩
      · cases visitor <;> simp [entered, found, Visitor.thread]
      · cases visitor <;> simp [inSection, found, Visitor.thread]
  | @worker index outcome pc done found worked =>
      have outside := exclusive.notSelfCall found
      have started := (doReconnWork_frame worked outside).1
      have staged := doReconnWork_stage worked outside
      cases active : pc.active with
      | true =>
          have alone := stage_active exclusive found active
          refine .inl ⟨index, outcome, pc, done, rfl, found, staged, alone.1, ?_, rfl⟩
          simpa [started, newThreads] using alone.2 done.members done.pc
      | false =>
          have retired : pc = .finalUnlock ∨ pc = .leaving := by
            cases pc <;> simp_all [WorkPc.active, doReconnWork]
          refine .inr ⟨stage_set_append found ?_ ?_, ?_, ?_, ?_⟩
          · rcases retired with rfl | rfl <;> rfl
          · rcases retired with rfl | rfl <;> simp [doReconnWork] at worked <;>
              simp [← worked, threadStage, stageOf]
          · rcases retired with rfl | rfl <;> simp [entered, found]
          · rcases retired with rfl | rfl <;> simp [inSection, found]
          · cases staged with
            | stays _ same _ _ _ _ => exact .inl same
            | _ => cases active

end DcCluster.Attach
