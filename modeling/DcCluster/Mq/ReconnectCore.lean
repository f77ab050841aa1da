import DcCluster.Lib.Transition

/-!
The reconnect machinery of `MqConnection.cpp` as a transition system. The threads
are the callers of `Conn`, the `onException` callbacks of the CMS library and the
reconnect threads that run `DoReconnWork`. One step acquires or releases
`m_lockReConn`, reads or writes one member, or performs one operation on a
semaphore, a thread or the CMS connection. The loops over the producers and
consumers run inside one critical section each and touch none of this state.
-/

namespace DcCluster.Reconnect

/-- The statements of `ReConn`. `dismissed` is the unlock of the early return. The `join` holds
the handle that `swartz_thread_wait` was called with. `createThrd` and `pthreadCreate` are
`swartz_thread_create`, up to the store of the handle and from there on. -/
inductive ReConnPc
  | lock
  | testFlag
  | dismissed
  | testOld
  | postSem
  | destroySem
  | clearSem
  | readThrd
  | join (handle : Option Nat)
  | clearThrd
  | createSem
  | createThrd
  | pthreadCreate
  | setFlag
  | unlock
  deriving DecidableEq, Repr

/-- The statements of `Conn`; `readFlag` is the test in its `catch` block. -/
inductive ConnPc
  | createConnection
  | setExceptionListener
  | start
  | createSession
  | readFlag
  deriving DecidableEq, Repr

inductive CallerPc
  | conn (pc : ConnPc)
  | reConn (pc : ReConnPc)
  | returned
  deriving DecidableEq, Repr

inductive CallbackPc
  | reConn (pc : ReConnPc)
  | returned
  deriving DecidableEq, Repr

/-- The statements of `DoReconnWork` with `DestroyConn` and `ReBuildConn`. After
`leaving` the thread has terminated and can be joined. -/
inductive WorkPc
  | setFlag
  | destroyLock
  | destroy
  | destroyUnlock
  | conn (pc : ConnPc)
  | reConn (pc : ReConnPc)
  | rebuildLock
  | rebuild
  | rebuildUnlock
  | readSem
  | semWait (sem : Option Nat)
  | finalLock
  | clearFlag
  | finalUnlock
  | leaving
  | exited
  deriving DecidableEq, Repr

inductive Thread
  | caller (pc : CallerPc)
  | callback (connection : Nat) (pc : CallbackPc)
  | reconnect (pc : WorkPc)
  deriving DecidableEq, Repr

/-- The members of `MqConnection`. A semaphore is the position of its token count
in `tokens`, a `swartz_thread_t` its position in `handles`, which has its thread once there
is one, a CMS connection the number of those created before it, a session the connection
that created it. -/
structure Members where
  lockReConn : Bool
  bReConn : Bool
  sem : Option Nat
  thrdReConn : Option Nat
  connection : Option Nat
  session : Option Nat
  listening : Bool
  tokens : List Nat
  handles : List (Option Nat)
  created : Nat
  deriving DecidableEq, Repr

structure System where
  members : Members
  threads : List Thread
  deriving DecidableEq, Repr

def Thread.hasExited : Thread → Bool
  | .reconnect .exited => true
  | _ => false

def System.threadOf (system : System) (handle : Nat) : Option Thread :=
  match system.members.handles[handle]? with
  | some (some index) => system.threads[index]?
  | _ => none

def System.joinable (system : System) : Option Nat → Bool
  | none => true
  | some handle => (system.threadOf handle).any Thread.hasExited

@[grind] def lockReConn (members : Members) : Option Members :=
  if members.lockReConn then none else some { members with lockReConn := true }

@[grind] def unlockReConn (members : Members) : Members := { members with lockReConn := false }

@[grind] def postSem (members : Members) : Members :=
  match members.sem with
  | none => members
  | some sem => { members with tokens := members.tokens.modify sem (· + 1) }

/-- What one statement leads to: the members, the next point of the thread, and
whether a reconnect thread was started. -/
structure Step (Pc : Type) where
  members : Members
  pc : Pc
  started : Bool

/-- One step of `ReConn`; the point `none` is its return. `outcome` tells whether a
creation succeeds. `pthread_create` writes through `m_thrdReConn`, and ends the process if
that is `NULL` meanwhile. -/
@[grind] def reConn (system : System) (outcome : Bool) : ReConnPc → Option (Step (Option ReConnPc))
  | .lock => (lockReConn system.members).map fun members => ⟨members, some .testFlag, false⟩
  | .testFlag =>
      some ⟨system.members, some (if system.members.bReConn then .dismissed else .testOld), false⟩
  | .dismissed => some ⟨unlockReConn system.members, none, false⟩
  | .testOld =>
      some ⟨system.members,
        some (if system.members.sem.isSome && system.members.thrdReConn.isSome then .postSem
          else .createSem), false⟩
  | .postSem => some ⟨postSem system.members, some .destroySem, false⟩
  | .destroySem => some ⟨system.members, some .clearSem, false⟩
  | .clearSem => some ⟨{ system.members with sem := none }, some .readThrd, false⟩
  | .readThrd => some ⟨system.members, some (.join system.members.thrdReConn), false⟩
  | .join handle =>
      if system.joinable handle then some ⟨system.members, some .clearThrd, false⟩ else none
  | .clearThrd => some ⟨{ system.members with thrdReConn := none }, some .createSem, false⟩
  | .createSem =>
      if outcome then
        some ⟨{ system.members with
            sem := some system.members.tokens.length
            tokens := system.members.tokens ++ [0] }, some .createThrd, false⟩
      else some ⟨{ system.members with sem := none }, some .unlock, false⟩
  | .createThrd =>
      if outcome then
        some ⟨{ system.members with
            thrdReConn := some system.members.handles.length
            handles := system.members.handles ++ [none] }, some .pthreadCreate, false⟩
      else some ⟨{ system.members with thrdReConn := none }, some .unlock, false⟩
  | .pthreadCreate =>
      match system.members.thrdReConn with
      | none => none
      | some handle =>
          if outcome then
            some ⟨{ system.members with
                handles := system.members.handles.set handle (some system.threads.length) },
              some .setFlag, true⟩
          else some ⟨{ system.members with thrdReConn := none }, some .unlock, false⟩
  | .setFlag => some ⟨{ system.members with bReConn := true }, some .unlock, false⟩
  | .unlock => some ⟨unlockReConn system.members, none, false⟩

/-- How `Conn` is left: with its result, or into the call of `ReConn` before the
result `false`. -/
inductive ConnResult
  | connected
  | failed
  | callReConn
  deriving DecidableEq, Repr

/-- One step of `Conn`. `outcome` tells whether the CMS call returns normally. A
use of `m_pConnection` while it is `NULL` ends the process. -/
@[grind] def conn (members : Members) (outcome : Bool) :
    ConnPc → Option (Step (ConnPc ⊕ ConnResult))
  | .createConnection =>
      if outcome then
        some ⟨{ members with
            connection := some members.created
            listening := false
            created := members.created + 1 }, .inl .setExceptionListener, false⟩
      else some ⟨members, .inl .readFlag, false⟩
  | .setExceptionListener =>
      if members.connection.isNone then none
      else if outcome then some ⟨{ members with listening := true }, .inl .start, false⟩
      else some ⟨members, .inl .readFlag, false⟩
  | .start =>
      if members.connection.isNone then none
      else some ⟨members, .inl (if outcome then .createSession else .readFlag), false⟩
  | .createSession =>
      if members.connection.isNone then none
      else if outcome then some ⟨{ members with session := members.connection }, .inr .connected, false⟩
      else some ⟨members, .inl .readFlag, false⟩
  | .readFlag => some ⟨members, .inr (if members.bReConn then .failed else .callReConn), false⟩

def Members.tokensOf (members : Members) : Option Nat → Nat
  | none => 0
  | some sem => members.tokens[sem]?.getD 0

/-- `swartz_sem_wait(m_sem, 45*1000)`: it takes a token and the loop is left, or it
times out. -/
@[grind] def semWait (members : Members) (sem : Option Nat) (token : Bool) : Option (Step WorkPc) :=
  if token then
    if 0 < members.tokensOf sem then
      some ⟨{ members with tokens := members.tokens.modify (sem.getD 0) (· - 1) }, .finalLock, false⟩
    else none
  else some ⟨members, .destroyLock, false⟩

@[grind] def WorkPc.inConn : ConnPc ⊕ ConnResult → WorkPc
  | .inl pc => .conn pc
  | .inr .connected => .rebuildLock
  | .inr .failed => .readSem
  | .inr .callReConn => .reConn .lock

@[grind] def WorkPc.inReConn : Option ReConnPc → WorkPc
  | some pc => .reConn pc
  | none => .readSem

@[grind] def doReconnWork (system : System) (outcome : Bool) : WorkPc → Option (Step WorkPc)
  | .setFlag => some ⟨{ system.members with bReConn := true }, .destroyLock, false⟩
  | .destroyLock => (lockReConn system.members).map fun members => ⟨members, .destroy, false⟩
  | .destroy =>
      some ⟨{ system.members with session := none, connection := none, listening := false },
        .destroyUnlock, false⟩
  | .destroyUnlock => some ⟨unlockReConn system.members, .conn .createConnection, false⟩
  | .conn pc =>
      (conn system.members outcome pc).map fun step =>
        ⟨step.members, .inConn step.pc, step.started⟩
  | .reConn pc =>
      (reConn system outcome pc).map fun step =>
        ⟨step.members, .inReConn step.pc, step.started⟩
  | .rebuildLock => (lockReConn system.members).map fun members => ⟨members, .rebuild, false⟩
  | .rebuild => some ⟨system.members, .rebuildUnlock, false⟩
  | .rebuildUnlock => some ⟨unlockReConn system.members, .finalLock, false⟩
  | .readSem => some ⟨system.members, .semWait system.members.sem, false⟩
  | .semWait sem => semWait system.members sem outcome
  | .finalLock => (lockReConn system.members).map fun members => ⟨members, .clearFlag, false⟩
  | .clearFlag => some ⟨{ system.members with bReConn := false }, .finalUnlock, false⟩
  | .finalUnlock => some ⟨unlockReConn system.members, .leaving, false⟩
  | .leaving => some ⟨system.members, .exited, false⟩
  | .exited => none

@[grind] def CallerPc.inConn : ConnPc ⊕ ConnResult → CallerPc
  | .inl pc => .conn pc
  | .inr .callReConn => .reConn .lock
  | .inr _ => .returned

@[grind] def CallerPc.inReConn : Option ReConnPc → CallerPc
  | some pc => .reConn pc
  | none => .returned

@[grind] def CallbackPc.inReConn : Option ReConnPc → CallbackPc
  | some pc => .reConn pc
  | none => .returned

@[grind] def advance (system : System) (outcome : Bool) : Thread → Option (Step Thread)
  | .caller (.conn pc) =>
      (conn system.members outcome pc).map fun step =>
        ⟨step.members, .caller (.inConn step.pc), step.started⟩
  | .caller (.reConn pc) =>
      (reConn system outcome pc).map fun step =>
        ⟨step.members, .caller (.inReConn step.pc), step.started⟩
  | .caller .returned => none
  | .callback connection (.reConn pc) =>
      (reConn system outcome pc).map fun step =>
        ⟨step.members, .callback connection (.inReConn step.pc), step.started⟩
  | .callback _ .returned => none
  | .reconnect pc =>
      (doReconnWork system outcome pc).map fun step =>
        ⟨step.members, .reconnect step.pc, step.started⟩

/-- `onException` is a report of the current connection, possible as soon as the
listener is set. -/
inductive Action
  | callConn
  | onException
  | thread (index : Nat) (outcome : Bool)
  deriving DecidableEq, Repr

def newThreads (started : Bool) : List Thread := if started then [.reconnect .setFlag] else []

def stepThread (system : System) (index : Nat) (outcome : Bool) : Option System :=
  match system.threads[index]? with
  | none => none
  | some thread =>
      (advance system outcome thread).map fun step =>
        { members := step.members
          threads := system.threads.set index step.pc ++ newThreads step.started }

def step (system : System) : Action → Option System
  | .callConn =>
      some { system with threads := system.threads ++ [.caller (.conn .createConnection)] }
  | .onException =>
      match system.members.connection with
      | none => none
      | some connection =>
          if system.members.listening then
            some { system with threads := system.threads ++ [.callback connection (.reConn .lock)] }
          else none
  | .thread index outcome => stepThread system index outcome

def constructed : System :=
  { members :=
      { lockReConn := false, bReConn := false, sem := none, thrdReConn := none, connection := none,
        session := none, listening := false, tokens := [], handles := [], created := 0 }
    threads := [] }

end DcCluster.Reconnect
