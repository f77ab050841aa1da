import DcCluster.Mq.Reconnect

/-!
Reports of connection failures. A callback that finds `m_bReConn` set returns at
once and leaves the failed connection to the running reconnect thread. That thread
destroys it only if it has another round to go, so the report is lost when its
`Conn` has succeeded on that very connection.
-/

namespace DcCluster.Reconnect

open DcCluster.Lib

@[grind] def WorkPc.retrying : WorkPc → Bool
  | .setFlag | .destroyLock | .destroy | .destroyUnlock | .conn _ | .reConn _ | .readSem
  | .semWait _ => true
  | _ => false

/-- Between the success of `Conn` and the store that clears `m_bReConn`. -/
@[grind] def WorkPc.connected : WorkPc → Bool
  | .rebuildLock | .rebuild | .rebuildUnlock | .finalLock | .clearFlag => true
  | _ => false

@[grind] def ReConnPc.creating : ReConnPc → Bool
  | .createSem | .createThrd | .pthreadCreate => true
  | _ => false

/-- The new semaphore is there, and the thread that will use it is not. -/
@[grind] def ReConnPc.spawning : ReConnPc → Bool
  | .createThrd | .pthreadCreate => true
  | _ => false

@[grind] def ReConnPc.answered : ReConnPc → Bool
  | .dismissed | .setFlag | .unlock => true
  | _ => false

@[grind] def CallbackPc.answered : CallbackPc → Bool
  | .reConn pc => pc.answered
  | .returned => true

@[grind] def Thread.answeredFor (connection : Nat) : Thread → Bool
  | .callback reporter pc => reporter = connection && pc.answered
  | _ => false

/-- While no reconnect thread is active and the flag is clear, no callback of the
current connection has come back. -/
def NoForgottenFailure (system : System) : Prop :=
  system.threads.countP (Thread.working WorkPc.active) = 0 → system.members.bReConn = false →
    ∀ connection, system.members.connection = some connection →
      .callback connection .returned ∉ system.threads

def creationSucceeds (system : System) : Action → Bool
  | .thread index outcome =>
      match system.threads[index]? with
      | some thread => !thread.inside ReConnPc.creating || outcome
      | none => true
  | _ => true

def Thread.reportOf (connection : Nat) : Thread → Bool
  | .callback reporter _ => reporter = connection
  | _ => false

def reportsOnce (system : System) : Action → Bool
  | .onException =>
      !system.members.connection.any fun connection =>
        system.threads.any (Thread.reportOf connection)
  | _ => true

/-- The step loses a report: it dismisses a callback of the current connection after
`Conn` has succeeded, or `Conn` succeeds on a connection whose callback was dismissed. -/
def losesReport (system : System) : Action → Bool
  | .thread index outcome =>
      match system.threads[index]? with
      | some (.callback reporter (.reConn .testFlag)) =>
          system.members.bReConn && system.members.connection == some reporter &&
            system.threads.any (Thread.working WorkPc.connected)
      | some (.reconnect (.conn .createSession)) =>
          outcome && system.members.connection.any fun connection =>
            system.threads.any (Thread.answeredFor connection)
      | _ => false
  | _ => false

def keepsReports (system : System) (action : Action) : Prop :=
  creationSucceeds system action = true ∧ losesReport system action = false

instance (system : System) (action : Action) : Decidable (keepsReports system action) :=
  inferInstanceAs (Decidable (_ ∧ _))

section Local

variable {system : System} {outcome : Bool}

theorem reConn_sem {pc : ReConnPc} {next : Step (Option ReConnPc)}
    (moved : reConn system outcome pc = some next) :
    next.members.sem = system.members.sem ∧ next.members.tokens = system.members.tokens ∧
        (next.pc.any ReConnPc.spawning).toNat + next.started.toNat ≤ pc.spawning.toNat ∨
      pc.deciding = true ∧ pc.spawning = false ∧ next.started = false ∧
        (next.members.tokensOf next.members.sem = 0 ∨ next.pc.any ReConnPc.spawning = false) := by
  cases pc with
  | createSem => cases outcome <;> simp_all [reConn, Members.tokensOf] <;> grind -ring -linarith
  | _ => grind -ring -linarith

theorem doReconnWork_tokens {pc : WorkPc} {next : Step WorkPc}
    (moved : doReconnWork system outcome pc = some next) (outside : pc.selfCall = false)
    (empty : ∀ sem, pc = .semWait sem → system.members.tokensOf sem = 0) :
    next.members.tokens = system.members.tokens ∧
      ∀ sem, next.pc = .semWait sem → sem = system.members.sem := by
  cases pc with
  | conn pc =>
      obtain ⟨frame, ⟨later, reached⟩ | reached | reached | ⟨reached, cleared⟩⟩ :=
        doReconnWork_conn moved
      all_goals grind -ring -linarith
  | reConn pc => cases outside
  | semWait sem =>
      have noToken := empty sem rfl
      grind -ring -linarith
  | _ => grind -ring -linarith

theorem reConn_connection {pc : ReConnPc} {next : Step (Option ReConnPc)}
    (moved : reConn system outcome pc = some next) :
    next.members.connection = system.members.connection ∧
      next.members.created = system.members.created := by
  cases pc <;> grind -ring -linarith

theorem reConn_answered {pc : ReConnPc} {next : Step (Option ReConnPc)}
    (moved : reConn system outcome pc = some next)
    (succeeds : pc.creating = true → outcome = true)
    (answered : next.pc.all ReConnPc.answered = true) :
    pc.answered = true ∨ next.started = true ∨
      pc = .testFlag ∧ system.members.bReConn = true := by
  cases pc <;> grind -ring -linarith

theorem conn_connection {members : Members} {pc : ConnPc} {next : Step (ConnPc ⊕ ConnResult)}
    (moved : conn members outcome pc = some next) :
    next.members.connection = members.connection ∧ next.members.created = members.created ∨
      next.members.connection = some members.created ∧
        next.members.created = members.created + 1 := by
  cases pc <;> grind -ring -linarith

theorem doReconnWork_connection {pc : WorkPc} {next : Step WorkPc}
    (moved : doReconnWork system outcome pc = some next) (outside : pc.selfCall = false) :
    (next.members.connection = system.members.connection ∨ next.members.connection = none) ∧
        next.members.created = system.members.created ∨
      next.members.connection = some system.members.created ∧
        next.members.created = system.members.created + 1 := by
  cases pc with
  | conn pc =>
      simp only [doReconnWork, Option.map_eq_some_iff] at moved
      obtain ⟨inner, connected, rfl⟩ := moved
      rcases conn_connection connected with ⟨same, created⟩ | replaced
      · exact .inl ⟨.inl same, created⟩
      · exact .inr replaced
  | reConn pc => cases outside
  | _ => grind -ring -linarith

theorem doReconnWork_retrying {pc : WorkPc} {next : Step WorkPc}
    (moved : doReconnWork system outcome pc = some next) (retrying : pc.retrying = true)
    (outside : pc.selfCall = false)
    (empty : ∀ sem, pc = .semWait sem → system.members.tokensOf sem = 0) :
    next.pc.retrying = true ∨
      pc = .conn .createSession ∧ outcome = true ∧
        next.members.connection = system.members.connection := by
  cases pc with
  | conn pc =>
      simp only [doReconnWork, Option.map_eq_some_iff] at moved
      obtain ⟨inner, connected, rfl⟩ := moved
      cases pc <;> grind -ring -linarith
  | reConn pc => cases outside
  | semWait sem =>
      have noToken := empty sem rfl
      grind -ring -linarith
  | _ => grind -ring -linarith

end Local

structure Quiet (system : System) : Prop where
  tokens : 0 < system.threads.countP (Thread.working WorkPc.active) +
      system.threads.countP (Thread.inside ReConnPc.spawning) →
    system.members.tokensOf system.members.sem = 0
  waiting : ∀ sem, .reconnect (.semWait sem) ∈ system.threads → sem = system.members.sem

theorem mem_moved {threads : List Thread} {index : Nat} {new thread : Thread} {started : Bool}
    (member : thread ∈ threads.set index new ++ newThreads started) :
    thread ∈ threads ∨ thread = new ∨ started = true ∧ thread = .reconnect .setFlag := by
  rcases List.mem_append.mp member with old | fresh
  · rcases List.mem_or_eq_of_mem_set old with stays | moved
    · exact .inl stays
    · exact .inr (.inl moved)
  · cases started with
    | false => simp [newThreads] at fresh
    | true => exact .inr (.inr ⟨rfl, by simpa [newThreads] using fresh⟩)

theorem Members.tokensOf_congr {members next : Members} (sameSem : next.sem = members.sem)
    (sameTokens : next.tokens = members.tokens) :
    next.tokensOf next.sem = members.tokensOf members.sem := by
  rw [sameSem]
  cases members.sem with
  | none => rfl
  | some sem => simp only [Members.tokensOf, sameTokens]

theorem deciding_of_spawning (thread : Thread)
    (creates : thread.inside ReConnPc.spawning = true) :
    thread.inside ReConnPc.deciding = true := by
  have decides (pc : ReConnPc) : pc.spawning = true → pc.deciding = true := by
    cases pc <;> simp [ReConnPc.spawning, ReConnPc.deciding]
  exact Thread.inside_mono decides thread creates

/-- A step that leaves the semaphores alone and adds no thread that is active, about to
be created or waiting for another semaphore. -/
theorem Quiet.of_kept {system : System} (quiet : Quiet system) {members : Members}
    {threads : List Thread} (sameSem : members.sem = system.members.sem)
    (sameTokens : members.tokens = system.members.tokens)
    (noneAdded : threads.countP (Thread.working WorkPc.active) +
        threads.countP (Thread.inside ReConnPc.spawning) ≤
      system.threads.countP (Thread.working WorkPc.active) +
        system.threads.countP (Thread.inside ReConnPc.spawning))
    (waits : ∀ sem, .reconnect (.semWait sem) ∈ threads →
      .reconnect (.semWait sem) ∈ system.threads ∨ sem = system.members.sem) :
    Quiet { members := members, threads := threads } := by
  constructor
  · intro busy
    dsimp only at busy ⊢
    rw [Members.tokensOf_congr sameSem sameTokens]
    exact quiet.tokens (by omega)
  · intro sem member
    dsimp only
    rw [sameSem]
    rcases waits sem member with old | same
    · exact quiet.waiting sem old
    · exact same

theorem Quiet.visitor {system : System} (quiet : Quiet system) (exclusive : Exclusive system)
    {index : Nat} {outcome : Bool} {visitor : Visitor} {pc : ReConnPc}
    {next : Step (Option ReConnPc)}
    (found : system.threads[index]? = some (visitor.thread (some pc)))
    (moved : reConn system outcome pc = some next) :
    Quiet { members := next.members
            threads := system.threads.set index (visitor.thread next.pc) ++
              newThreads next.started } := by
  have actives := countP_visitor_working found next.pc next.started WorkPc.active
  have creators := countP_visitor_inside found next.pc next.started ReConnPc.spawning
  have creates := toNat_le_countP (Thread.inside ReConnPc.spawning) found
  have decides := toNat_le_countP (Thread.inside ReConnPc.deciding) found
  simp only [WorkPc.active, Bool.and_true] at actives
  simp only [Visitor.inside_thread, Option.any_some] at creates decides
  have stillWaits {sem : Option Nat} (member : .reconnect (.semWait sem) ∈
      system.threads.set index (visitor.thread next.pc) ++ newThreads next.started) :
      .reconnect (.semWait sem) ∈ system.threads := by
    rcases mem_moved member with old | moved | ⟨_, fresh⟩
    · exact old
    · cases visitor <;> simp [Visitor.thread] at moved
    · simp at fresh
  rcases reConn_sem moved with ⟨sameSem, sameTokens, starts⟩ | ⟨deciding, away, stays, clean⟩
  · refine quiet.of_kept sameSem sameTokens (by omega) ?_
    intro sem member
    exact .inl (stillWaits member)
  · -- the thread that exchanges the semaphore holds the lock, and nobody is active
    have idle : system.threads.countP (Thread.working WorkPc.active) = 0 := by
      have room := exclusive.deciding
      simp only [deciding, Bool.toNat_true] at decides
      omega
    have alone := countP_add_le_of_found deciding_of_spawning found
    simp only [Visitor.inside_thread, Option.any_some, deciding, away, Bool.toNat_true,
      Bool.toNat_false] at alone
    have room := exclusive.deciding
    simp only [stays, Bool.toNat_false, Nat.add_zero] at actives
    simp only [away, Bool.toNat_false, Nat.add_zero] at creators
    refine ⟨fun busy => ?_, fun sem member => ?_⟩
    · rcases clean with empty | notYet
      · exact empty
      · simp only [notYet, Bool.toNat_false] at creators
        dsimp only at busy
        rw [stays] at busy creators
        omega
    · have inactive := countP_eq_zero_iff_none.mp idle _ (stillWaits member)
      cases inactive

theorem Quiet.empty {system : System} (quiet : Quiet system) {index : Nat} {pc : WorkPc}
    (found : system.threads[index]? = some (.reconnect pc)) (sem : Option Nat)
    (waits : pc = .semWait sem) : system.members.tokensOf sem = 0 := by
  subst pc
  have active : 0 < system.threads.countP (Thread.working WorkPc.active) :=
    countP_pos_of_found _ found rfl
  rw [quiet.waiting sem (List.mem_of_getElem? found)]
  exact quiet.tokens (by omega)

theorem Quiet.worker {system : System} (quiet : Quiet system) (exclusive : Exclusive system)
    {index : Nat} {outcome : Bool} {pc : WorkPc} {next : Step WorkPc}
    (found : system.threads[index]? = some (.reconnect pc))
    (moved : doReconnWork system outcome pc = some next) :
    Quiet { members := next.members
            threads := system.threads.set index (.reconnect next.pc) ++ newThreads next.started } := by
  have outside := exclusive.notSelfCall found
  have outsideNext := exclusive.notSelfCall_next found moved
  obtain ⟨started, _, sameSem⟩ := doReconnWork_frame moved outside
  have flagChange := doReconnWork_flag moved outside
  have here := toNat_le_countP (Thread.working WorkPc.active) found
  obtain ⟨sameTokens, waitsOn⟩ := doReconnWork_tokens moved outside (quiet.empty found)
  have actives := countP_moved (Thread.working WorkPc.active) found (.reconnect next.pc) next.started
  have creators := countP_moved (Thread.inside ReConnPc.spawning) found (.reconnect next.pc)
    next.started
  simp only [Thread.working, Thread.inside, WorkPc.inside_of_outside outside,
    WorkPc.inside_of_outside outsideNext, started, Bool.false_and, Bool.toNat_false,
    Nat.add_zero] at actives creators
  refine quiet.of_kept sameSem sameTokens (by rw [started]; omega) ?_
  intro sem member
  rcases mem_moved member with old | reached | ⟨fresh, _⟩
  · exact .inl old
  · exact .inr (waitsOn sem (Thread.reconnect.inj reached).symm)
  · simp [started] at fresh

theorem Quiet.append {system : System} (quiet : Quiet system) {thread : Thread}
    (visits : ∀ point, thread.working point = false)
    (outside : thread.inside ReConnPc.spawning = false) :
    Quiet { system with threads := system.threads ++ [thread] } := by
  refine ⟨fun busy => quiet.tokens ?_, fun sem member => quiet.waiting sem ?_⟩
  · simpa [List.countP_append, visits, outside] using busy
  · rcases List.mem_append.mp member with old | new
    · exact old
    · have isNew := List.mem_singleton.mp new
      have working := visits fun _ => true
      rw [← isNew] at working
      cases working

theorem Quiet.move {system next : System} {action : Action} (quiet : Quiet system)
    (exclusive : Exclusive system) (moved : Move system action next) : Quiet next := by
  cases moved with
  | call => exact quiet.append (fun _ => rfl) rfl
  | report _ _ => exact quiet.append (fun _ => rfl) rfl
  | @caller index _ pc next found connected =>
      obtain ⟨started, _, _, sameSem, _, sameTokens, _⟩ := conn_frame connected
      have actives := countP_moved (Thread.working WorkPc.active) found
        (.caller (.inConn next.pc)) next.started
      have creators := countP_moved (Thread.inside ReConnPc.spawning) found
        (.caller (.inConn next.pc)) next.started
      have before : (Thread.caller (.conn pc)).inside ReConnPc.spawning = false := rfl
      have after : (Thread.caller (.inConn next.pc)).inside ReConnPc.spawning = false := by
        rcases next.pc with later | _ | _ | _ <;> rfl
      simp only [before, after, Thread.working, started, Bool.false_and, Bool.toNat_false,
        Nat.add_zero] at actives creators
      refine quiet.of_kept sameSem sameTokens (by rw [started]; omega) ?_
      intro sem member
      rcases mem_moved member with old | reached | ⟨fresh, _⟩
      · exact .inl old
      · cases reached
      · simp [started] at fresh
  | visitor found entered => exact quiet.visitor exclusive found entered
  | worker found worked => exact quiet.worker exclusive found worked

theorem quiet_reachable {allowed : System → Action → Prop} {system : System}
    (reached : Reachable step (· = constructed) allowed system) : Quiet system := by
  refine reached.invariant Quiet ?_ ?_
  · rintro _ rfl
    exact ⟨fun _ => rfl, fun sem member => by simp [constructed] at member⟩
  · intro state _ _ reachedState quiet _ taken
    exact quiet.move (exclusive_reachable reachedState) (step_move taken)

/-- An answered report of the current connection is in the hands of a reconnect
thread that will destroy the connection. -/
structure Reports (system : System) : Prop where
  current : ∀ connection, system.members.connection = some connection →
    connection < system.members.created
  known : ∀ connection pc, .callback connection pc ∈ system.threads →
    connection < system.members.created
  answered : ∀ connection, system.members.connection = some connection →
    (∃ thread ∈ system.threads, thread.answeredFor connection = true) →
      0 < system.threads.countP (Thread.working WorkPc.retrying)

theorem Reports.fresh {system : System} (reports : Reports system) {thread : Thread}
    (member : thread ∈ system.threads) :
    thread.answeredFor system.members.created = false := by
  cases thread with
  | callback connection pc =>
      have known := reports.known connection pc member
      have differs : connection ≠ system.members.created := by omega
      simp [Thread.answeredFor, differs]
  | _ => rfl

section Kept

variable {system : System} {index : Nat} {outcome : Bool}
  (kept : keepsReports system (.thread index outcome))
include kept

theorem creation_of_kept {thread : Thread} (found : system.threads[index]? = some thread)
    (creates : thread.inside ReConnPc.creating = true) : outcome = true := by
  have succeeds := kept.1
  simpa [creationSucceeds, found, creates] using succeeds

theorem unconnected_of_kept {connection : Nat}
    (found : system.threads[index]? = some (.callback connection (.reConn .testFlag)))
    (raised : system.members.bReConn = true)
    (current : system.members.connection = some connection) :
    system.threads.countP (Thread.working WorkPc.connected) = 0 := by
  have loses := kept.2
  simp only [losesReport, found, raised, current, beq_self_eq_true, Bool.true_and,
    List.any_eq_false, Bool.not_eq_true] at loses
  exact countP_eq_zero_iff_none.mpr loses

theorem unanswered_of_kept {connection : Nat} (succeeds : outcome = true)
    (found : system.threads[index]? = some (.reconnect (.conn .createSession)))
    (current : system.members.connection = some connection) {thread : Thread}
    (member : thread ∈ system.threads) : thread.answeredFor connection = false := by
  have loses := kept.2
  simp only [losesReport, found, succeeds, current, Option.any_some, Bool.true_and,
    List.any_eq_false, Bool.not_eq_true] at loses
  exact loses thread member

end Kept

theorem active_cases (thread : Thread) (active : thread.working WorkPc.active = true) :
    thread.working WorkPc.retrying = true ∨ thread.working WorkPc.connected = true := by
  cases thread with
  | reconnect pc =>
      cases pc <;> simp_all [Thread.working, WorkPc.active, WorkPc.retrying, WorkPc.connected]
  | _ => cases active

theorem Reports.visitor {system : System} (reports : Reports system) (exclusive : Exclusive system)
    {index : Nat} {outcome : Bool} {visitor : Visitor} {pc : ReConnPc}
    {next : Step (Option ReConnPc)} (kept : keepsReports system (.thread index outcome))
    (found : system.threads[index]? = some (visitor.thread (some pc)))
    (moved : reConn system outcome pc = some next) :
    Reports { members := next.members
              threads := system.threads.set index (visitor.thread next.pc) ++
                newThreads next.started } := by
  obtain ⟨sameConnection, sameCreated⟩ := reConn_connection moved
  have member := List.mem_of_getElem? found
  have retriers := countP_visitor_working found next.pc next.started WorkPc.retrying
  simp only [WorkPc.retrying, Bool.and_true] at retriers
  refine ⟨?_, ?_, ?_⟩
  · intro connection current
    dsimp only at current ⊢
    rw [sameConnection] at current
    rw [sameCreated]
    exact reports.current connection current
  · intro connection point inNext
    dsimp only
    rw [sameCreated]
    rcases mem_moved inNext with old | reached | ⟨_, fresh⟩
    · exact reports.known connection point old
    · cases visitor with
      | caller => cases reached
      | callback reporter =>
          obtain ⟨rfl, _⟩ := Thread.callback.inj reached
          exact reports.known connection _ member
    · cases fresh
  · rintro connection current ⟨thread, inNext, answered⟩
    dsimp only at current ⊢
    rw [sameConnection] at current
    rcases mem_moved inNext with old | reached | ⟨_, fresh⟩
    · have before := reports.answered connection current ⟨thread, old, answered⟩
      omega
    · subst thread
      cases visitor with
      | caller => cases answered
      | callback reporter =>
          simp only [Visitor.thread, Thread.answeredFor, Bool.and_eq_true, decide_eq_true_eq]
            at answered
          obtain ⟨rfl, answered⟩ := answered
          have succeeds (creates : pc.creating = true) : outcome = true :=
            creation_of_kept kept found (by simpa using creates)
          have nextAnswered : next.pc.all ReConnPc.answered = true := by
            cases reached : next.pc with
            | none => rfl
            | some later => simpa [reached, CallbackPc.inReConn, CallbackPc.answered] using answered
          rcases reConn_answered moved succeeds nextAnswered with before | started | ⟨rfl, raised⟩
          · have earlier := reports.answered reporter current
              ⟨_, member, by simp [Visitor.thread, Thread.answeredFor, CallbackPc.inReConn,
                CallbackPc.answered, before]⟩
            omega
          · simp only [started, Bool.toNat_true] at retriers
            rw [started]
            omega
          · -- the flag is set, so a thread is active, and it has not connected yet
            have unconnected := unconnected_of_kept kept found raised current
            have idle := exclusive.idle
            have covered := countP_le_add active_cases system.threads
            simp only [raised, Bool.toNat_true] at idle
            omega
    · subst thread
      cases answered

/-- A step that changes no callback keeps the reports, unless it leaves an answered one
without a thread that retries. -/
theorem Reports.of_kept {system : System} (reports : Reports system) {members : Members}
    {threads : List Thread}
    (change : (members.connection = system.members.connection ∨ members.connection = none) ∧
        members.created = system.members.created ∨
      members.connection = some system.members.created ∧
        members.created = system.members.created + 1)
    (stays : ∀ connection pc, .callback connection pc ∈ threads →
      .callback connection pc ∈ system.threads)
    (retries : ∀ connection thread, system.members.connection = some connection →
      thread ∈ system.threads → thread.answeredFor connection = true →
      0 < system.threads.countP (Thread.working WorkPc.retrying) →
      0 < threads.countP (Thread.working WorkPc.retrying)) :
    Reports { members := members, threads := threads } := by
  refine ⟨?_, ?_, ?_⟩
  · intro connection current
    dsimp only at current ⊢
    rcases change with ⟨same | none, sameCreated⟩ | ⟨replaced, created⟩
    · rw [same] at current
      rw [sameCreated]
      exact reports.current connection current
    · simp [none] at current
    · rw [replaced] at current
      have isNew := Option.some.inj current
      omega
  · intro connection point inNext
    have known := reports.known connection point (stays connection point inNext)
    dsimp only
    omega
  · rintro connection current ⟨thread, inNext, answered⟩
    have old : thread ∈ system.threads := by
      cases thread with
      | callback reporter pc => exact stays reporter pc inNext
      | _ => cases answered
    dsimp only at current ⊢
    rcases change with ⟨same | none, sameCreated⟩ | ⟨replaced, created⟩
    · rw [same] at current
      exact retries connection thread current old answered
        (reports.answered connection current ⟨thread, old, answered⟩)
    · simp [none] at current
    · rw [replaced] at current
      obtain rfl := Option.some.inj current
      simp [reports.fresh old] at answered

theorem Reports.worker {system : System} (reports : Reports system) (exclusive : Exclusive system)
    (quiet : Quiet system) {index : Nat} {outcome : Bool} {pc : WorkPc} {next : Step WorkPc}
    (kept : keepsReports system (.thread index outcome))
    (found : system.threads[index]? = some (.reconnect pc))
    (moved : doReconnWork system outcome pc = some next) :
    Reports { members := next.members
              threads := system.threads.set index (.reconnect next.pc) ++
                newThreads next.started } := by
  have outside := exclusive.notSelfCall found
  have started := (doReconnWork_frame moved outside).1
  have retriers := countP_moved (Thread.working WorkPc.retrying) found (.reconnect next.pc)
    next.started
  simp only [Thread.working, started, Bool.false_and, Bool.toNat_false, Nat.add_zero] at retriers
  refine reports.of_kept (doReconnWork_connection moved outside) ?_ ?_
  · intro connection point inNext
    rcases mem_moved inNext with old | reached | ⟨_, fresh⟩
    · exact old
    · cases reached
    · cases fresh
  · intro connection thread current old answered before
    cases retrying : pc.retrying with
    | false =>
        simp only [retrying, Bool.toNat_false, Nat.add_zero] at retriers
        rw [started]
        omega
    | true =>
        rcases doReconnWork_retrying moved retrying outside (quiet.empty found) with
          again | ⟨rfl, succeeds, _⟩
        · simp only [retrying, again, Bool.toNat_true] at retriers
          rw [started]
          omega
        · have unanswered := unanswered_of_kept kept succeeds found current old
          simp [answered] at unanswered

theorem Reports.caller {system : System} (reports : Reports system) {index : Nat} {outcome : Bool}
    {pc : ConnPc} {next : Step (ConnPc ⊕ ConnResult)}
    (found : system.threads[index]? = some (.caller (.conn pc)))
    (moved : conn system.members outcome pc = some next) :
    Reports { members := next.members
              threads := system.threads.set index (.caller (.inConn next.pc)) ++
                newThreads next.started } := by
  have started := (conn_frame moved).1
  have retriers := countP_moved (Thread.working WorkPc.retrying) found (.caller (.inConn next.pc))
    next.started
  simp only [Thread.working, started, Bool.false_and, Bool.toNat_false, Nat.add_zero] at retriers
  refine reports.of_kept ((conn_connection moved).imp_left (.imp_left .inl)) ?_ ?_
  · intro connection point inNext
    rcases mem_moved inNext with old | reached | ⟨_, fresh⟩
    · exact old
    · cases reached
    · cases fresh
  · intro connection thread current old answered before
    rw [started]
    omega

theorem Reports.append {system : System} (reports : Reports system) {thread : Thread}
    (unanswered : ∀ connection, thread.answeredFor connection = false)
    (known : ∀ connection pc, thread = .callback connection pc →
      connection < system.members.created) :
    Reports { system with threads := system.threads ++ [thread] } := by
  refine ⟨reports.current, ?_, ?_⟩
  · intro connection pc member
    rcases List.mem_append.mp member with old | new
    · exact reports.known connection pc old
    · exact known connection pc (List.mem_singleton.mp new).symm
  · rintro connection current ⟨answering, member, answered⟩
    rcases List.mem_append.mp member with old | new
    · have before := reports.answered connection current ⟨answering, old, answered⟩
      rw [List.countP_append]
      omega
    · rw [List.mem_singleton.mp new, unanswered] at answered
      cases answered

theorem Reports.move {system next : System} {action : Action} (reports : Reports system)
    (exclusive : Exclusive system) (quiet : Quiet system) (kept : keepsReports system action)
    (moved : Move system action next) : Reports next := by
  cases moved with
  | call => exact reports.append (fun _ => rfl) (by simp)
  | report current listening =>
      refine reports.append (fun _ => ?_) ?_
      · simp [Thread.answeredFor, CallbackPc.answered, ReConnPc.answered]
      · rintro connection pc isNew
        obtain ⟨rfl, _⟩ := Thread.callback.inj isNew
        exact reports.current _ current
  | caller found connected => exact reports.caller found connected
  | visitor found entered => exact reports.visitor exclusive kept found entered
  | worker found worked => exact reports.worker exclusive quiet kept found worked

theorem reports_reachable {system : System}
    (reached : Reachable step (· = constructed) keepsReports system) : Reports system := by
  refine reached.invariant Reports ?_ ?_
  · rintro _ rfl
    exact ⟨fun _ current => by simp [constructed] at current,
      fun _ _ member => by simp [constructed] at member,
      fun _ current => by simp [constructed] at current⟩
  · intro state _ _ reachedState reports kept taken
    exact reports.move (exclusive_reachable reachedState) (quiet_reachable reachedState) kept
      (step_move taken)

theorem active_of_retrying (thread : Thread) (retrying : thread.working WorkPc.retrying = true) :
    thread.working WorkPc.active = true := by
  cases thread with
  | reconnect pc => cases pc <;> simp_all [Thread.working, WorkPc.retrying, WorkPc.active]
  | _ => cases retrying

/-- In every run that loses no report, a connection that has reported a failure is not
the current one any more when the machinery comes to rest. -/
theorem noForgottenFailure_of_keepsReports {system : System}
    (reached : Reachable step (· = constructed) keepsReports system) :
    NoForgottenFailure system := by
  intro inactive _ connection current returned
  have retrying := (reports_reachable reached).answered connection current
    ⟨.callback connection .returned, returned, by simp [Thread.answeredFor, CallbackPc.answered]⟩
  have active : system.threads.countP (Thread.working WorkPc.retrying) ≤
      system.threads.countP (Thread.working WorkPc.active) :=
    List.countP_mono_left fun thread _ => active_of_retrying thread
  omega

def replacedConnection : List Action :=
  .callConn :: List.replicate 4 (.thread 0 true) ++
    .onException :: List.replicate 8 (.thread 1 true) ++ List.replicate 15 (.thread 2 true)

theorem noForgottenFailure_of_keepsReports_replacedConnection :
    ∃ system, run step constructed replacedConnection = some system ∧
      system.threads[1]? = some (.callback 0 .returned) ∧ system.members.connection = some 1 ∧
      .callback 1 .returned ∉ system.threads := by
  have reached : Reachable step (· = constructed) keepsReports
      ((run step constructed replacedConnection).get (by decide)) :=
    .append_run (.start rfl) (by decide : Permitted step keepsReports constructed replacedConnection)
      (Option.some_get _).symm
  exact ⟨(run step constructed replacedConnection).get (by decide), (Option.some_get _).symm,
    by decide, by decide,
    noForgottenFailure_of_keepsReports reached (by decide) (by decide) 1 (by decide)⟩

/-- The new connection fails while the reconnect thread, already connected, waits for
the lock to rebuild the producers; its callback finds the flag set and returns. -/
def failureDuringRebuild : List Action :=
  .callConn :: List.replicate 4 (.thread 0 true) ++
    .onException :: List.replicate 8 (.thread 1 true) ++ List.replicate 8 (.thread 2 true) ++
    .onException :: List.replicate 3 (.thread 3 true) ++ List.replicate 7 (.thread 2 true)

theorem failureDuringRebuild_is_forgotten :
    ¬ ∀ system, Reachable step (· = constructed)
      (fun state action => creationSucceeds state action = true ∧ reportsOnce state action = true)
      system → NoForgottenFailure system := by
  intro always
  have reached : Reachable step (· = constructed)
      (fun state action => creationSucceeds state action = true ∧ reportsOnce state action = true)
      ((run step constructed failureDuringRebuild).get (by decide)) :=
    .append_run (.start rfl) (by decide : Permitted step _ constructed failureDuringRebuild)
      (Option.some_get _).symm
  exact always _ reached (by decide) (by decide) 1 (by decide) (by decide)

end DcCluster.Reconnect
