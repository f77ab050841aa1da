import DcCluster.Mq.AttachStages

/-!
What the objects of a connection look like while Add calls and reconnects attach and
detach them, and that the statements of the reconnect machinery keep it so.
-/

namespace DcCluster.Attach

open DcCluster.Lib
open DcCluster.Mq
open DcCluster.Reconnect

/-! One object. -/

/-- The statements of `Create` and `Destroy` one after the other do what the calls do in the
model of the registry. -/
theorem statements_create_destroy (endpoint : Endpoint) (session : Nat) :
    (∃ created, run (fun at' closes => at'.1.step (some session) closes at'.2)
        (endpoint, .readSession) [true, true, true, true] = some (created, .done) ∧
      created.toMqEndpoint = endpoint.toMqEndpoint.create .created (some session)) ∧
    ∃ destroyed, run (fun at' closes => at'.1.step (some session) closes at'.2)
        (endpoint, .releaseDestination) [true, true, true] = some (destroyed, .done) ∧
      destroyed.toMqEndpoint = endpoint.toMqEndpoint.destroy :=
  ⟨⟨_, rfl, rfl⟩, _, rfl, rfl⟩

@[grind] def Blank (endpoint : Endpoint) : Prop :=
  endpoint.pSession = none ∧ endpoint.pDestination = none ∧ endpoint.pHandle = none ∧
    endpoint.destinations = [] ∧ endpoint.handles = []

/-- The object refers to the session, and one destination and one CMS producer or consumer
exist for it, both made on that session. -/
@[grind] def AttachedOnce (session : Nat) (endpoint : Endpoint) : Prop :=
  endpoint.pSession = some session ∧ endpoint.pDestination = some session ∧
    endpoint.pHandle = some session ∧ endpoint.destinations = [session] ∧
    endpoint.handles = [session]

/-- In `Create` past a read of a session. -/
@[grind] def EndpointPc.attaching : EndpointPc → Bool
  | .setSession _ | .createDestination | .createHandle => true
  | _ => false

@[grind] def EndpointPc.creates : EndpointPc → Bool
  | .readSession => true
  | pc => pc.attaching

@[grind] def EndpointPc.releases : EndpointPc → Bool
  | .releaseDestination | .releaseHandle | .clearSession => true
  | _ => false

/-- What an object looks like while only one call of `Create` or `Destroy` works on it. -/
@[grind] def Fits (session : Option Nat) (endpoint : Endpoint) : EndpointPc → Prop
  | .readSession => Blank endpoint
  | .setSession current => Blank endpoint ∧ session = some current
  | .createDestination =>
      ∃ current, session = some current ∧ endpoint.pSession = some current ∧
        endpoint.pHandle = none ∧ endpoint.destinations = [] ∧ endpoint.handles = []
  | .createHandle =>
      ∃ current, session = some current ∧ endpoint.pSession = some current ∧
        endpoint.pDestination = some current ∧ endpoint.destinations = [current] ∧
        endpoint.handles = []
  | .releaseDestination => Blank endpoint ∨ ∃ current, AttachedOnce current endpoint
  | .releaseHandle =>
      endpoint.pDestination = none ∧ endpoint.destinations = [] ∧
        (endpoint.pHandle = none ∧ endpoint.handles = [] ∨
          ∃ current, endpoint.pHandle = some current ∧ endpoint.handles = [current])
  | .clearSession =>
      endpoint.pDestination = none ∧ endpoint.pHandle = none ∧ endpoint.destinations = [] ∧
        endpoint.handles = []
  | .done => True

section Endpoint

variable {session : Option Nat} {closes : Bool} {endpoint : Endpoint} {pc : EndpointPc}
  {next : Endpoint × EndpointPc} (moved : endpoint.step session closes pc = some next)
  (fits : Fits session endpoint pc)
include moved fits

theorem fits_creating {current : Nat} (isSession : session = some current)
    (creates : pc.creates = true) :
    next.2.attaching = true ∧ Fits session next.1 next.2 ∨
      next.2 = .done ∧ AttachedOnce current next.1 := by
  cases pc <;> grind -ring -linarith

theorem fits_releasing (closed : closes = true) (releases : pc.releases = true) :
    next.2.releases = true ∧ Fits session next.1 next.2 ∨ next.2 = .done ∧ Blank next.1 := by
  cases pc with
  | releaseDestination =>
      rcases fits with blank | ⟨current, attached⟩ <;> grind -ring -linarith [release]
  | releaseHandle =>
      obtain ⟨noDestination, noDestinations, ⟨noHandle, noHandles⟩ | ⟨current, handle, handles⟩⟩ :=
        fits <;> grind -ring -linarith [release]
  | _ => grind -ring -linarith

end Endpoint

/-! All objects of a connection. -/

def AddPc.ptr : AddPc → Option Nat
  | .push _ _ _ => none
  | .create ptr _ => some ptr

def AddPc.attaching : AddPc → Option (Nat × EndpointPc)
  | .push _ _ _ => none
  | .create ptr pc => if pc.attaching then some (ptr, pc) else none

/-- No Add call is in progress and no reconnect thread is in its loop. -/
def Settled (state : State) : Prop :=
  (∀ add ∈ state.adds, ∃ ptr, add = .create ptr .done) ∧
    ∀ thread ∈ state.system.threads, thread.looping = false

def AttachedExactlyOnce (state : State) : Prop :=
  Settled state → ∀ session, state.system.members.session = some session →
    ∀ ptr ∈ state.listed,
      ∃ endpoint, state.heap[ptr]? = some endpoint ∧ AttachedOnce session endpoint

/-- An Add call reads a session only for an object that is not attached, and not from the
start of a `DestroyConn` to the end of that round of the reconnect loop. A `DestroyConn`
begins only while no Add call attaches its object, and its calls of `close` succeed. -/
def attachesAlone (state : State) : Action → Bool
  | .mq action =>
      entered state.system action != some .releaseDestination ||
        state.adds.all (·.attaching.isNone)
  | .add _ _ _ => true
  | .addStep index =>
      match state.adds[index]? with
      | some (.create ptr .readSession) =>
          state.system.members.session.isNone ||
            (stage state.system == .idle && state.heap[ptr]?.all (·.pSession.isNone))
      | _ => true
  | .work closes => closes

/-- What an object looks like that no call works on. `awaited` tells whether its Add call has
not yet read the session. -/
def Rests (stage : Stage) (session : Option Nat) (awaited : Prop) (endpoint : Endpoint) : Prop :=
  match stage with
  | .destroying | .online => Blank endpoint
  | .rebuilding => ∃ current, session = some current ∧ AttachedOnce current endpoint
  | .offline => Blank endpoint ∧ (session = none ∨ awaited)
  | .idle | .rebuilt =>
      (∃ current, session = some current ∧ AttachedOnce current endpoint) ∨
        Blank endpoint ∧ (session = none ∨ awaited)

/-- The calls in progress on listed objects: those of the critical section and the Add calls
that have read a session. -/
def State.busy (state : State) : List (Nat × EndpointPc) :=
  state.work ++ state.adds.filterMap AddPc.attaching

theorem State.busy_nil {state : State} (noWork : state.work = [])
    (noAdd : state.adds.filterMap AddPc.attaching = []) : state.busy = [] := by
  rw [State.busy, noWork, noAdd]
  rfl

structure Consistent (state : State) : Prop where
  reached : Reachable Reconnect.step (· = constructed) anyAction state.system
  calls : state.adds ≠ [] → state.system.threads ≠ [] ∧
    ∀ thread ∈ state.system.threads, thread.callDone = true
  creating : ∀ ptr pc, .create ptr pc ∈ state.adds → pc.creates = true ∨ pc = .done
  owners : (state.adds.filterMap AddPc.ptr).Perm state.listed
  nodup : state.listed.Nodup
  allocated : ∀ ptr ∈ state.listed, ptr < state.heap.length
  sections : (state.work.map Prod.fst).Sublist state.listed
  working : ∀ entry ∈ state.work,
    stage state.system = .destroying ∧ entry.2.releases = true ∨
      stage state.system = .rebuilding ∧ entry.2.creates = true
  adding : ∀ entry ∈ state.adds.filterMap AddPc.attaching, stage state.system = .idle
  fits : ∀ entry ∈ state.busy, ∀ endpoint, state.heap[entry.1]? = some endpoint →
    Fits state.system.members.session endpoint entry.2
  rests : ∀ ptr ∈ state.listed, (∀ entry ∈ state.busy, entry.1 ≠ ptr) →
    ∀ endpoint, state.heap[ptr]? = some endpoint →
      Rests (stage state.system) state.system.members.session
        (.create ptr .readSession ∈ state.adds) endpoint
  online : stage state.system = .online ∨ stage state.system = .rebuilding →
    state.system.members.session.isSome = true

theorem consistent_start : Consistent start where
  reached := .start rfl
  calls adds := absurd rfl adds
  creating ptr pc member := by cases member
  owners := .nil
  nodup := .nil
  allocated ptr listed := by cases listed
  sections := .slnil
  working entry member := by cases member
  adding entry member := by cases member
  fits entry member := by cases member
  rests ptr listed := by cases listed
  online isOnline := by simp [stage, start, constructed] at isOnline

section Consistent

variable {state : State} (consistent : Consistent state)
include consistent

theorem Consistent.no_attaching (busy : stage state.system ≠ .idle) :
    state.adds.filterMap AddPc.attaching = [] :=
  List.eq_nil_iff_forall_not_mem.mpr fun entry member => busy (consistent.adding entry member)

theorem Consistent.no_work (outside : stage state.system ≠ .destroying)
    (outsideToo : stage state.system ≠ .rebuilding) : state.work = [] := by
  refine List.eq_nil_iff_forall_not_mem.mpr fun entry member => ?_
  rcases consistent.working entry member with ⟨inside, _⟩ | ⟨inside, _⟩
  · exact outside inside
  · exact outsideToo inside

theorem Consistent.not_busy (idle : stage state.system ≠ .idle) (noWork : state.work = [])
    (ptr : Nat) : ∀ entry ∈ state.busy, entry.1 ≠ ptr := by
  rw [State.busy, noWork, consistent.no_attaching idle]
  intro entry member
  cases member

theorem Consistent.listed_nil (noAdds : state.adds = []) : state.listed = [] := by
  have owners := consistent.owners
  rw [noAdds] at owners
  exact owners.symm.eq_nil

section System

variable {system : System}
  (reached : Reachable Reconnect.step (· = constructed) anyAction system)
  (calls : state.adds ≠ [] → system.threads ≠ [] ∧
    ∀ thread ∈ system.threads, thread.callDone = true)
include reached calls

theorem Consistent.same_stage (sameStage : stage system = stage state.system)
    (sameSession : system.members.session = state.system.members.session) :
    Consistent { state with system := system } where
  reached := reached
  calls := calls
  creating := consistent.creating
  owners := consistent.owners
  nodup := consistent.nodup
  allocated := consistent.allocated
  sections := consistent.sections
  working := by rw [sameStage]; exact consistent.working
  adding := by rw [sameStage]; exact consistent.adding
  fits := by rw [sameSession]; exact consistent.fits
  rests := by rw [sameStage, sameSession]; exact consistent.rests
  online := by rw [sameStage, sameSession]; exact consistent.online

theorem Consistent.new_stage (noBusy : state.busy = [])
    (rests : state.listed ≠ [] → ∀ (awaited : Prop) (endpoint : Endpoint),
      Rests (stage state.system) state.system.members.session awaited endpoint →
        Rests (stage system) system.members.session awaited endpoint)
    (online : stage system = .online ∨ stage system = .rebuilding →
      system.members.session.isSome = true) :
    Consistent { state with system := system } := by
  obtain ⟨noWork, noAdd⟩ := List.append_eq_nil_iff.mp noBusy
  refine ⟨reached, calls, consistent.creating, consistent.owners, consistent.nodup,
    consistent.allocated, consistent.sections, fun entry member => ?_, fun entry member => ?_,
    fun entry member => ?_,
    fun ptr listed free endpoint found => ?_, online⟩
  · simp [noWork] at member
  · simp [noAdd] at member
  · simp [State.busy, noWork, noAdd] at member
  · exact rests (List.ne_nil_of_mem listed) _ endpoint
      (consistent.rests ptr listed free endpoint found)

/-- A critical section begins: all listed objects are its work. -/
theorem Consistent.new_section {first : EndpointPc}
    (noAdd : state.adds.filterMap AddPc.attaching = [])
    (isSection : stage system = .destroying ∧ first.releases = true ∨
      stage system = .rebuilding ∧ first.creates = true)
    (fits : ∀ ptr ∈ state.listed, ∀ endpoint, state.heap[ptr]? = some endpoint →
      Fits system.members.session endpoint first)
    (online : stage system = .online ∨ stage system = .rebuilding →
      system.members.session.isSome = true) :
    Consistent { state with system := system, work := state.listed.map fun ptr => (ptr, first) } := by
  refine ⟨reached, calls, consistent.creating, consistent.owners, consistent.nodup,
    consistent.allocated, ?_,
    fun entry member => ?_, fun entry member => ?_, fun entry member endpoint found => ?_,
    fun ptr listed free => ?_, online⟩
  · have pointers : (state.listed.map fun ptr => (ptr, first)).map Prod.fst = state.listed := by
      simp [Function.comp_def]
    simp only [pointers]
    exact List.Sublist.refl _
  · obtain ⟨ptr, _, rfl⟩ := List.mem_map.mp member
    exact isSection
  · simp [noAdd] at member
  · simp only [State.busy, noAdd, List.append_nil] at member
    obtain ⟨ptr, listed, rfl⟩ := List.mem_map.mp member
    exact fits ptr listed endpoint found
  · have working : (ptr, first) ∈ state.listed.map fun ptr => (ptr, first) :=
      List.mem_map.mpr ⟨ptr, listed, rfl⟩
    exact absurd rfl (free _ (List.mem_append_left _ working))

end System

end Consistent

theorem step_mq {state next : State} {action : Reconnect.Action}
    (taken : step state (.mq action) = some next) :
    (action = .callConn → state.system.threads = []) ∧
      (inSection state.system action = true → state.work = []) ∧
      ∃ system, Reconnect.step state.system action = some system ∧
        next = { state with
          system := system
          work :=
            match entered state.system action with
            | none => state.work
            | some first => state.listed.map fun ptr => (ptr, first) } := by
  simp only [step] at taken
  split at taken
  · cases taken
  · rename_i permitted
    simp only [stepMq] at taken
    split at taken
    · cases taken
    · rename_i notBusy
      obtain ⟨system, stepped, rfl⟩ := Option.map_eq_some_iff.mp taken
      refine ⟨fun calls => ?_, fun inside => ?_, system, stepped, rfl⟩
      · simpa [calls] using permitted
      · simpa [inside] using notBusy

theorem threads_ne_nil_of_move {system next : System} {action : Reconnect.Action}
    (moved : Move system action next) (threads : system.threads ≠ []) : next.threads ≠ [] := by
  cases moved with
  | call | report _ _ => simp
  | caller _ _ | visitor _ _ | worker _ _ => simp [threads]

theorem entered_found {system : System} {index : Nat} {outcome : Bool} {pc : WorkPc}
    (found : system.threads[index]? = some (.reconnect pc)) (notDestroy : pc ≠ .destroyLock)
    (notRebuild : pc ≠ .rebuildLock) : entered system (.thread index outcome) = none := by
  simp only [entered, found]
  cases pc <;> first | rfl | contradiction

theorem Consistent.worker {state : State} {system : System} {index : Nat} {outcome : Bool}
    {pc : WorkPc} {done : Step WorkPc} (consistent : Consistent state)
    (reached : Reachable Reconnect.step (· = constructed) anyAction system)
    (calls : state.adds ≠ [] → system.threads ≠ [] ∧
      ∀ thread ∈ system.threads, thread.callDone = true)
    (found : state.system.threads[index]? = some (.reconnect pc))
    (staged : StageStep state.system pc done) (before : stage state.system = stageOf pc)
    (after : stage system = stageOf done.pc) (members : system.members = done.members)
    (leavesDone : inSection state.system (.thread index outcome) = true → state.work = [])
    (allowed : attachesAlone state (.mq (.thread index outcome)) = true) :
    Consistent { state with
      system := system
      work :=
        match entered state.system (.thread index outcome) with
        | none => state.work
        | some first => state.listed.map fun ptr => (ptr, first) } := by
  have newSession : system.members.session = done.members.session := by rw [members]
  have noBusy (notIdle : stage state.system ≠ .idle) (noWork : state.work = []) : state.busy = [] :=
    State.busy_nil noWork (consistent.no_attaching notIdle)
  cases staged with
  | stays sameStage sameSession notOnline _ _ notDestroy =>
      rw [entered_found found notDestroy (fun isLock => notOnline (by rw [isLock]; rfl))]
      exact consistent.same_stage reached calls (after.trans (sameStage.trans before.symm))
        (newSession.trans sameSession)
  | destroys isDestroy sameSession =>
      rw [isDestroy] at after
      have isEntered : entered state.system (.thread index outcome) = some .releaseDestination := by
        simp [entered, found]
      have noAdd : state.adds.filterMap AddPc.attaching = [] := by
        simpa [attachesAlone, isEntered] using allowed
      have noWork := consistent.no_work (by simp [before, stageOf]) (by simp [before, stageOf])
      rw [isEntered]
      refine consistent.new_section reached calls noAdd (.inl ⟨after, rfl⟩)
        (fun ptr listed endpoint there => ?_) (fun isOnline => ?_)
      · have rests := consistent.rests ptr listed
          (by simp [State.busy_nil noWork noAdd]) endpoint there
        rw [before] at rests
        rcases rests with ⟨current, _, attached⟩ | ⟨blank, _⟩
        · exact .inr ⟨current, attached⟩
        · exact .inl blank
      · simp [after, stageOf] at isOnline
  | disconnects isOffline noSession =>
      have noWork := leavesDone (by simp [inSection, found])
      rw [entered_found found (by simp) (by simp)]
      refine consistent.new_stage reached calls (noBusy (by simp [before, stageOf]) noWork)
        (fun _ awaited endpoint rests => ?_) (fun isOnline => ?_)
      · rw [before] at rests
        rw [after, isOffline, newSession, noSession]
        exact ⟨rests, .inl rfl⟩
      · simp [after, isOffline] at isOnline
  | connects isOnline isSome =>
      have noWork := consistent.no_work (by simp [before, stageOf]) (by simp [before, stageOf])
      rw [entered_found found (by simp) (by simp)]
      refine consistent.new_stage reached calls (noBusy (by simp [before, stageOf]) noWork)
        (fun _ awaited endpoint rests => ?_) (fun _ => newSession ▸ isSome)
      rw [before] at rests
      rw [after, isOnline]
      exact rests.1
  | retries isIdle sameSession =>
      have noWork := consistent.no_work (by simp [before, stageOf]) (by simp [before, stageOf])
      rw [entered_found found (by simp) (by simp)]
      refine consistent.new_stage reached calls (noBusy (by simp [before, stageOf]) noWork)
        (fun _ awaited endpoint rests => ?_) (fun isOnline => ?_)
      · rw [before] at rests
        rw [after, isIdle, newSession, sameSession]
        exact .inr rests
      · simp [after, isIdle] at isOnline
  | rebuilds isRebuild sameSession =>
      rw [isRebuild] at after
      have isEntered : entered state.system (.thread index outcome) = some .readSession := by
        simp [entered, found]
      have noWork := consistent.no_work (by simp [before, stageOf]) (by simp [before, stageOf])
      have busy : stage state.system ≠ .idle := by simp [before, stageOf]
      rw [isEntered]
      refine consistent.new_section reached calls (consistent.no_attaching busy)
        (.inr ⟨after, rfl⟩) (fun ptr listed endpoint there => ?_) (fun _ => ?_)
      · have rests := consistent.rests ptr listed (consistent.not_busy busy noWork ptr) endpoint there
        rw [before] at rests
        exact rests
      · rw [newSession, sameSession]
        exact consistent.online (.inl before)
  | attaches isRebuilt sameSession =>
      have noWork := leavesDone (by simp [inSection, found])
      rw [entered_found found (by simp) (by simp)]
      refine consistent.new_stage reached calls (noBusy (by simp [before, stageOf]) noWork)
        (fun _ awaited endpoint rests => ?_) (fun isOnline => ?_)
      · rw [before] at rests
        rw [after, isRebuilt, newSession, sameSession]
        exact .inl rests
      · simp [after, isRebuilt] at isOnline
  | finishes isIdle sameSession =>
      have noWork := consistent.no_work (by simp [before, stageOf]) (by simp [before, stageOf])
      rw [entered_found found (by simp) (by simp)]
      refine consistent.new_stage reached calls (noBusy (by simp [before, stageOf]) noWork)
        (fun _ awaited endpoint rests => ?_) (fun isOnline => ?_)
      · rw [before] at rests
        rw [after, isIdle, newSession, sameSession]
        exact rests
      · simp [after, isIdle] at isOnline

theorem Consistent.mq {state next : State} {action : Reconnect.Action}
    (consistent : Consistent state) (allowed : attachesAlone state (.mq action) = true)
    (taken : step state (.mq action) = some next) : Consistent next := by
  obtain ⟨onlyFirst, leavesDone, system, stepped, rfl⟩ := step_mq taken
  have moved := step_move stepped
  have reached : Reachable Reconnect.step (· = constructed) anyAction system :=
    .step consistent.reached trivial stepped
  have calls (adds : state.adds ≠ []) : system.threads ≠ [] ∧
      ∀ thread ∈ system.threads, thread.callDone = true := by
    obtain ⟨threads, callsDone⟩ := consistent.calls adds
    exact ⟨threads_ne_nil_of_move moved threads,
      moved.keeps_callDone (fun isCall => threads (onlyFirst isCall)) callsDone⟩
  rcases move_stage (exclusive_reachable consistent.reached) moved with
    ⟨index, outcome, pc, done, rfl, found, staged, before, after, members⟩ |
      ⟨sameStage, notEntered, _, sameSession | ⟨isSome, thread, member, calling⟩⟩
  · exact consistent.worker reached calls found staged before after members leavesDone allowed
  · rw [notEntered]
    exact consistent.same_stage reached calls sameStage sameSession
  · -- the first call of `Conn` has not returned, so nothing has been added yet
    have noAdds : state.adds = [] := by
      by_contra adds
      rw [(consistent.calls adds).2 thread member] at calling
      cases calling
    have noWork : state.work = [] := by
      have sections := consistent.sections
      rw [consistent.listed_nil noAdds] at sections
      exact List.map_eq_nil_iff.mp (List.sublist_nil.mp sections)
    rw [notEntered]
    exact consistent.new_stage reached calls
      (State.busy_nil noWork (by simp [noAdds]))
      (fun listed => absurd (consistent.listed_nil noAdds) listed) (fun _ => isSome)

end DcCluster.Attach
