import DcCluster.Lib.Transition
import Mathlib.Logic.Nontrivial.Basic

/-!
The POSIX mutex with its three types, and what each of them makes of a well
bracketed sequence of calls by one thread.
-/

namespace DcCluster.Lib

/-- How a call ends; the standard leaves the behaviour of some calls undefined. -/
inductive CallEnd (Result : Type)
  | returns (result : Result)
  | blocks
  | undefined

def CallEnd.map {α β : Type} (change : α → β) : CallEnd α → CallEnd β
  | .returns result => .returns (change result)
  | .blocks => .blocks
  | .undefined => .undefined

def CallEnd.bind {α β : Type} (first : CallEnd α) (next : α → CallEnd β) : CallEnd β :=
  match first with
  | .returns result => next result
  | .blocks => .blocks
  | .undefined => .undefined

theorem CallEnd.map_map {α β γ : Type} (second : β → γ) (first : α → β) (ended : CallEnd α) :
    (ended.map first).map second = ended.map (second ∘ first) := by
  cases ended <;> rfl

theorem CallEnd.bind_assoc {α β γ : Type} (ended : CallEnd α) (next : α → CallEnd β)
    (last : β → CallEnd γ) :
    (ended.bind next).bind last = ended.bind fun result => (next result).bind last := by
  cases ended <;> rfl

theorem CallEnd.map_bind {α β γ : Type} (change : β → γ) (first : CallEnd α)
    (next : α → CallEnd β) :
    (first.bind next).map change = first.bind fun result => (next result).map change := by
  cases first <;> rfl

theorem CallEnd.bind_map {α β γ : Type} (change : α → β) (first : CallEnd α)
    (next : β → CallEnd γ) : (first.map change).bind next = first.bind fun result =>
      next (change result) := by
  cases first <;> rfl

theorem CallEnd.map_eq_returns {α β : Type} {change : α → β} {first : CallEnd α} {result : β} :
    first.map change = .returns result ↔
      ∃ before, first = .returns before ∧ change before = result := by
  cases first <;> simp [CallEnd.map]

/-! ### Brackets -/

inductive MutexCall
  | lock
  | unlock
  deriving DecidableEq, Repr

/-- How deep the locks are nested after a call; an unlock needs a lock before it. -/
def depthStep : Nat → MutexCall → Option Nat
  | depth, .lock => some (depth + 1)
  | 0, .unlock => none
  | depth + 1, .unlock => some depth

def depthAfter : Nat → List MutexCall → Option Nat
  | depth, [] => some depth
  | depth, call :: rest => (depthStep depth call).bind (depthAfter · rest)

def WellBracketed (calls : List MutexCall) : Prop := depthAfter 0 calls = some 0

def Shallow (depth : Nat) (calls : List MutexCall) : Prop :=
  ∀ before, before <+: calls → ∀ reached, depthAfter depth before = some reached → reached ≤ 1

theorem shallow_cons {depth next : Nat} {call : MutexCall} {rest : List MutexCall}
    (step : depthStep depth call = some next) :
    Shallow depth (call :: rest) ↔ depth ≤ 1 ∧ Shallow next rest := by
  unfold Shallow
  rw [forall_prefix_cons]
  simp [depthAfter, step]

/-! ### Scopes that lock where they begin and unlock where they end -/

inductive Scopes
  | done
  | scope (body rest : Scopes)

def Scopes.calls : Scopes → List MutexCall
  | .done => []
  | .scope body rest => .lock :: body.calls ++ .unlock :: rest.calls

/-- The ends of scopes that are still open, each with what follows it. -/
def closings : List Scopes → List MutexCall
  | [] => []
  | after :: outer => .unlock :: after.calls ++ closings outer

theorem depthAfter_append (depth : Nat) (first second : List MutexCall) :
    depthAfter depth (first ++ second) =
      (depthAfter depth first).bind (depthAfter · second) := by
  induction first generalizing depth with
  | nil => rfl
  | cons call rest ih =>
      rw [List.cons_append, depthAfter, depthAfter, Option.bind_assoc]
      simp only [ih]

theorem depthAfter_calls (scopes : Scopes) (depth : Nat) :
    depthAfter depth scopes.calls = some depth := by
  induction scopes generalizing depth with
  | done => rfl
  | scope body rest bodyDepth restDepth =>
      simp [Scopes.calls, depthAfter, depthStep, depthAfter_append, bodyDepth, restDepth]

theorem exists_scopes {depth : Nat} {calls : List MutexCall}
    (closed : depthAfter depth calls = some 0) :
    ∃ (scopes : Scopes) (outer : List Scopes),
      outer.length = depth ∧ scopes.calls ++ closings outer = calls := by
  induction calls generalizing depth with
  | nil =>
      obtain rfl : depth = 0 := Option.some.inj closed
      exact ⟨.done, [], rfl, rfl⟩
  | cons call rest ih =>
      cases call with
      | lock =>
          obtain ⟨body, outer, length, same⟩ := @ih (depth + 1) closed
          match outer, length with
          | after :: outer, length =>
              refine ⟨.scope body after, outer, Nat.succ.inj length, ?_⟩
              rw [← same]
              simp [Scopes.calls, closings]
      | unlock =>
          cases depth with
          | zero => cases closed
          | succ depth =>
              obtain ⟨after, outer, length, same⟩ := @ih depth closed
              refine ⟨.done, after :: outer, by rw [List.length_cons, length], ?_⟩
              rw [← same]
              simp [Scopes.calls, closings]

theorem wellBracketed_iff_scopes {calls : List MutexCall} :
    WellBracketed calls ↔ ∃ scopes : Scopes, scopes.calls = calls := by
  constructor
  · intro well
    obtain ⟨scopes, outer, empty, same⟩ := exists_scopes well
    obtain rfl := List.eq_nil_of_length_eq_zero empty
    rw [closings, List.append_nil] at same
    exact ⟨scopes, same⟩
  · rintro ⟨scopes, rfl⟩
    exact depthAfter_calls scopes 0

/-! ### One thread's calls -/

section Nesting

variable {Thread State Inner : Type} {perform : Thread → MutexCall → State → CallEnd State}

def runCalls (perform : Thread → MutexCall → State → CallEnd State) (thread : Thread) :
    State → List MutexCall → CallEnd State
  | state, [] => .returns state
  | state, call :: rest => (perform thread call state).bind (runCalls perform thread · rest)

theorem runCalls_append (thread : Thread) (state : State) (first second : List MutexCall) :
    runCalls perform thread state (first ++ second) =
      (runCalls perform thread state first).bind (runCalls perform thread · second) := by
  induction first generalizing state with
  | nil => rfl
  | cons call rest ih =>
      rw [List.cons_append, runCalls, runCalls, CallEnd.bind_assoc]
      simp only [ih]

/-- No call of the thread blocks, and at every point another thread that tries can
lock only where the thread's locks are all undone. -/
def NestsFrom (perform : Thread → MutexCall → State → CallEnd State) (thread : Thread)
    (depth : Nat) (state : State) (calls : List MutexCall) : Prop :=
  ∀ before, before <+: calls → ∃ reached,
    runCalls perform thread state before = .returns reached ∧
      ∀ other taken, other ≠ thread → perform other .lock reached = .returns taken →
        depthAfter depth before = some 0

theorem nestsFrom_nil {thread : Thread} {depth : Nat} {state : State} :
    NestsFrom perform thread depth state [] ↔
      ∀ other taken, other ≠ thread → perform other .lock state = .returns taken → depth = 0 := by
  simp [NestsFrom, runCalls, depthAfter]

theorem nestsFrom_cons {thread : Thread} {depth next : Nat} {state : State} {call : MutexCall}
    {rest : List MutexCall} (step : depthStep depth call = some next) :
    NestsFrom perform thread depth state (call :: rest) ↔
      NestsFrom perform thread depth state [] ∧
        ∃ reached, perform thread call state = .returns reached ∧
          NestsFrom perform thread next reached rest := by
  rw [nestsFrom_nil, NestsFrom, forall_prefix_cons]
  refine and_congr (by simp [runCalls, depthAfter]) ?_
  cases ends : perform thread call state with
  | returns reached => simp [runCalls, ends, CallEnd.bind, depthAfter, step, NestsFrom]
  | blocks | undefined =>
      simp only [runCalls, ends, CallEnd.bind, reduceCtorEq, false_and, exists_false, iff_false]
      intro all
      exact all [] List.nil_prefix

theorem runCalls_map {embed : Inner → State} {inner : Thread → MutexCall → Inner → CallEnd Inner}
    (simulates : ∀ thread call state,
      perform thread call (embed state) = (inner thread call state).map embed)
    (thread : Thread) (state : Inner) (calls : List MutexCall) :
    runCalls perform thread (embed state) calls = (runCalls inner thread state calls).map embed := by
  induction calls generalizing state with
  | nil => rfl
  | cons call rest ih =>
      rw [runCalls, runCalls, simulates, CallEnd.bind_map, CallEnd.map_bind]
      simp only [ih]

theorem nestsFrom_map {embed : Inner → State} {inner : Thread → MutexCall → Inner → CallEnd Inner}
    (simulates : ∀ thread call state,
      perform thread call (embed state) = (inner thread call state).map embed)
    {thread : Thread} {depth : Nat} {state : Inner} {calls : List MutexCall} :
    NestsFrom perform thread depth (embed state) calls ↔
      NestsFrom inner thread depth state calls := by
  simp only [NestsFrom, runCalls_map simulates, CallEnd.map_eq_returns]
  refine forall₂_congr fun before _ => ?_
  constructor
  · rintro ⟨_, ⟨reached, ends, rfl⟩, exclusive⟩
    refine ⟨reached, ends, ?_⟩
    intro other taken differ locked
    refine exclusive other (embed taken) differ ?_
    rw [simulates, locked, CallEnd.map]
  · rintro ⟨reached, ends, exclusive⟩
    refine ⟨embed reached, ⟨reached, ends, rfl⟩, ?_⟩
    intro other taken differ locked
    rw [simulates, CallEnd.map_eq_returns] at locked
    obtain ⟨inside, lockedInside, _⟩ := locked
    exact exclusive other inside differ lockedInside

end Nesting

/-! ### The types of a mutex -/

inductive MutexKind
  | normal
  | recursive
  | errorcheck
  deriving DecidableEq, Repr

/-- The thread that has the mutex, and how often it has locked it once more. -/
structure Holder (Thread : Type) where
  thread : Thread
  relocks : Nat

structure PosixMutex (Thread : Type) where
  kind : MutexKind
  holder : Option (Holder Thread)

def eperm : Int := 1

def edeadlk : Int := 35

section Mutex

variable {Thread : Type} [DecidableEq Thread]

def PosixMutex.lock (mutex : PosixMutex Thread) (thread : Thread) :
    CallEnd (Int × PosixMutex Thread) :=
  match mutex.holder with
  | none => .returns (0, { mutex with holder := some ⟨thread, 0⟩ })
  | some holder =>
      if holder.thread = thread then
        match mutex.kind with
        | .normal => .blocks
        | .recursive => .returns (0, { mutex with holder := some ⟨thread, holder.relocks + 1⟩ })
        | .errorcheck => .returns (edeadlk, mutex)
      else .blocks

/-- An unlock by a thread that does not have the mutex is an error, or for the normal
type undefined. -/
def PosixMutex.unlockUnheld (mutex : PosixMutex Thread) : CallEnd (Int × PosixMutex Thread) :=
  match mutex.kind with
  | .normal => .undefined
  | .recursive | .errorcheck => .returns (eperm, mutex)

def PosixMutex.unlock (mutex : PosixMutex Thread) (thread : Thread) :
    CallEnd (Int × PosixMutex Thread) :=
  match mutex.holder with
  | none => mutex.unlockUnheld
  | some holder =>
      if holder.thread = thread then
        match holder.relocks with
        | 0 => .returns (0, { mutex with holder := none })
        | relocks + 1 => .returns (0, { mutex with holder := some ⟨thread, relocks⟩ })
      else mutex.unlockUnheld

def PosixMutex.perform (thread : Thread) : MutexCall → PosixMutex Thread →
    CallEnd (PosixMutex Thread)
  | .lock, mutex => (mutex.lock thread).map Prod.snd
  | .unlock, mutex => (mutex.unlock thread).map Prod.snd

def PosixMutex.lockedAt (kind : MutexKind) (thread : Thread) : Nat → PosixMutex Thread
  | 0 => { kind := kind, holder := none }
  | relocks + 1 => { kind := kind, holder := some ⟨thread, relocks⟩ }

open PosixMutex

theorem perform_lock {kind : MutexKind} {depth : Nat} (nests : kind = .recursive ∨ depth = 0)
    (thread : Thread) :
    perform thread .lock (lockedAt kind thread depth) =
      .returns (lockedAt kind thread (depth + 1)) := by
  cases depth with
  | zero => rfl
  | succ relocks =>
      obtain rfl | impossible := nests
      · simp [perform, lockedAt, PosixMutex.lock, CallEnd.map]
      · omega

theorem perform_relock_normal (relocks : Nat) (thread : Thread) :
    perform thread .lock (lockedAt .normal thread (relocks + 1)) = .blocks := by
  simp [perform, lockedAt, PosixMutex.lock, CallEnd.map]

theorem perform_relock_errorcheck (relocks : Nat) (thread : Thread) :
    perform thread .lock (lockedAt .errorcheck thread (relocks + 1)) =
      .returns (lockedAt .errorcheck thread (relocks + 1)) := by
  simp [perform, lockedAt, PosixMutex.lock, CallEnd.map]

theorem perform_unlock (kind : MutexKind) (depth : Nat) (thread : Thread) :
    perform thread .unlock (lockedAt kind thread (depth + 1)) =
      .returns (lockedAt kind thread depth) := by
  cases depth <;> simp [perform, lockedAt, PosixMutex.unlock, CallEnd.map]

theorem nestsFrom_lockedAt_nil (kind : MutexKind) (depth : Nat) (thread : Thread) :
    NestsFrom perform thread depth (lockedAt kind thread depth) [] := by
  rw [nestsFrom_nil]
  intro other taken differ locked
  cases depth with
  | zero => rfl
  | succ relocks =>
      simp [perform, lockedAt, PosixMutex.lock, CallEnd.map, Ne.symm differ] at locked

theorem nestsFrom_lockedAt {kind : MutexKind} {depth final : Nat} {calls : List MutexCall}
    (bracketed : depthAfter depth calls = some final)
    (nests : kind = .recursive ∨ Shallow depth calls) (thread : Thread) :
    NestsFrom perform thread depth (lockedAt kind thread depth) calls := by
  induction calls generalizing depth with
  | nil => exact nestsFrom_lockedAt_nil kind depth thread
  | cons call rest ih =>
      obtain ⟨next, step, bracketed⟩ := Option.bind_eq_some_iff.mp bracketed
      have nestsRest : kind = .recursive ∨ Shallow next rest :=
        nests.imp_right fun shallow => ((shallow_cons step).mp shallow).2
      rw [nestsFrom_cons step]
      refine ⟨nestsFrom_lockedAt_nil kind depth thread, lockedAt kind thread next, ?_,
        ih bracketed nestsRest⟩
      cases call with
      | lock =>
          obtain rfl := Option.some.inj step
          refine perform_lock (nests.imp_right fun shallow => ?_) thread
          have deeper : depth + 1 ≤ 1 :=
            ((shallow_cons step).mp shallow).2 [] List.nil_prefix _ rfl
          omega
      | unlock =>
          cases depth with
          | zero => cases step
          | succ depth =>
              obtain rfl := Option.some.inj step
              exact perform_unlock kind depth thread

/-- An unlock that belongs to a refused lock lets another thread in too early. -/
theorem errorcheck_releases_early [Nontrivial Thread] {depth : Nat} {calls : List MutexCall}
    {thread : Thread} (closed : depthAfter (depth + 2) calls = some 0) :
    ¬ NestsFrom perform thread (depth + 2) (lockedAt .errorcheck thread 1) calls := by
  induction calls generalizing depth with
  | nil => cases closed
  | cons call rest ih =>
      obtain ⟨next, step, closed⟩ := Option.bind_eq_some_iff.mp closed
      rw [nestsFrom_cons step]
      rintro ⟨_, reached, ends, nests⟩
      cases call with
      | lock =>
          obtain rfl := Option.some.inj step
          obtain rfl := CallEnd.returns.inj ((perform_relock_errorcheck 0 thread).symm.trans ends)
          exact @ih (depth + 1) closed nests
      | unlock =>
          obtain rfl := Option.some.inj step
          rw [perform_unlock, CallEnd.returns.injEq] at ends
          subst ends
          obtain ⟨other, differ⟩ := exists_ne thread
          obtain ⟨_, ends, exclusive⟩ := nests [] List.nil_prefix
          obtain rfl := CallEnd.returns.inj ends
          have early : some (depth + 1) = some 0 :=
            exclusive other _ differ (perform_lock (.inr rfl) other)
          cases early

theorem shallow_of_nestsFrom [Nontrivial Thread] {kind : MutexKind} {depth : Nat}
    {calls : List MutexCall} {thread : Thread} (plain : kind ≠ .recursive) (free : depth ≤ 1)
    (closed : depthAfter depth calls = some 0)
    (nests : NestsFrom perform thread depth (lockedAt kind thread depth) calls) :
    Shallow depth calls := by
  induction calls generalizing depth with
  | nil =>
      intro before initial reached ends
      obtain rfl := List.prefix_nil.mp initial
      obtain rfl := Option.some.inj ends
      exact free
  | cons call rest ih =>
      obtain ⟨next, step, closed⟩ := Option.bind_eq_some_iff.mp closed
      obtain ⟨_, reached, ends, nests⟩ := (nestsFrom_cons step).mp nests
      refine (shallow_cons step).mpr ⟨free, ?_⟩
      cases call with
      | lock =>
          obtain rfl := Option.some.inj step
          by_cases outermost : depth = 0
          · subst outermost
            rw [perform_lock (.inr rfl), CallEnd.returns.injEq] at ends
            subst ends
            exact ih (by omega) closed nests
          · obtain rfl : depth = 1 := by omega
            cases kind with
            | normal => cases (perform_relock_normal 0 thread).symm.trans ends
            | recursive => exact absurd rfl plain
            | errorcheck =>
                obtain rfl :=
                  CallEnd.returns.inj ((perform_relock_errorcheck 0 thread).symm.trans ends)
                exact absurd nests (errorcheck_releases_early closed)
      | unlock =>
          cases depth with
          | zero => cases step
          | succ depth =>
              obtain rfl := Option.some.inj step
              rw [perform_unlock, CallEnd.returns.injEq] at ends
              subst ends
              exact ih (by omega) closed nests

/-- Only the recursive type nests; the others do as long as no lock is inside another. -/
theorem nestsFrom_iff [Nontrivial Thread] {kind : MutexKind} {calls : List MutexCall}
    (well : WellBracketed calls) (thread : Thread) :
    NestsFrom perform thread 0 (lockedAt kind thread 0) calls ↔
      kind = .recursive ∨ Shallow 0 calls := by
  constructor
  · intro nests
    by_cases recursive : kind = .recursive
    · exact .inl recursive
    · exact .inr (shallow_of_nestsFrom recursive (by omega) well nests)
  · intro nests
    exact nestsFrom_lockedAt well nests thread

theorem lockedAt_of_returns {kind : MutexKind} (refuses : kind ≠ .errorcheck) {depth final : Nat}
    {calls : List MutexCall} {thread : Thread} {reached : PosixMutex Thread}
    (bracketed : depthAfter depth calls = some final)
    (ends : runCalls perform thread (lockedAt kind thread depth) calls = .returns reached) :
    reached = lockedAt kind thread final := by
  induction calls generalizing depth with
  | nil =>
      obtain rfl := Option.some.inj bracketed
      exact (CallEnd.returns.inj ends).symm
  | cons call rest ih =>
      obtain ⟨next, step, bracketed⟩ := Option.bind_eq_some_iff.mp bracketed
      rw [runCalls] at ends
      cases call with
      | lock =>
          obtain rfl := Option.some.inj step
          by_cases nests : kind = .recursive ∨ depth = 0
          · rw [perform_lock nests, CallEnd.bind] at ends
            exact ih bracketed ends
          · cases depth with
            | zero => exact absurd (.inr rfl) nests
            | succ relocks =>
                cases kind with
                | normal =>
                    rw [perform_relock_normal] at ends
                    cases ends
                | recursive => exact absurd (.inl rfl) nests
                | errorcheck => exact absurd rfl refuses
      | unlock =>
          cases depth with
          | zero => cases step
          | succ depth =>
              obtain rfl := Option.some.inj step
              rw [perform_unlock, CallEnd.bind] at ends
              exact ih bracketed ends

/-- Calls that all get through nest, except where a lock is refused. -/
theorem nestsFrom_of_returns {kind : MutexKind} (refuses : kind ≠ .errorcheck) {depth final : Nat}
    {calls : List MutexCall} {thread : Thread} {reached : PosixMutex Thread}
    (bracketed : depthAfter depth calls = some final)
    (ends : runCalls perform thread (lockedAt kind thread depth) calls = .returns reached) :
    NestsFrom perform thread depth (lockedAt kind thread depth) calls := by
  rintro before ⟨rest, rfl⟩
  rw [depthAfter_append] at bracketed
  obtain ⟨middle, bracketed, _⟩ := Option.bind_eq_some_iff.mp bracketed
  rw [runCalls_append] at ends
  cases halfway : runCalls perform thread (lockedAt kind thread depth) before with
  | returns state =>
      refine ⟨state, rfl, ?_⟩
      obtain rfl := lockedAt_of_returns refuses bracketed halfway
      intro other taken differ locked
      obtain rfl := nestsFrom_nil.mp (nestsFrom_lockedAt_nil kind middle thread) other taken differ
        locked
      exact bracketed
  | blocks | undefined =>
      rw [halfway, CallEnd.bind] at ends
      cases ends

end Mutex

end DcCluster.Lib
