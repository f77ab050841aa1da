import DcCluster.Mq.ReconnectHandle

/-!
`MqConnection::DisConn` beside the reconnect machinery. The manager calls it once, when
no call of `Conn` is in progress, and deletes the connection after it. Until then the
CMS library may still report failures, and a reconnect thread may be running.
-/

namespace DcCluster.DisConn

open DcCluster.Lib
open DcCluster.Reconnect

/-- The statements of `DisConn` with its call of `DestroyConn`. The `wait` holds the
handle that `swartz_thread_wait` was called with. -/
inductive DisConnPc
  | idle
  | testThrd
  | readThrd
  | wait (handle : Option Nat)
  | clearThrd
  | destroyLock
  | destroy
  | destroyUnlock
  | listLock
  | clearLists
  | listUnlock
  | returned
  deriving DecidableEq, Repr

/-- `system` is the connection without its two lists of pointers. `joins` collects the
handles that a `swartz_thread_wait` was called with. -/
structure State where
  system : System
  disConn : DisConnPc
  listProducer : List Nat
  listConsumer : List Nat
  joins : List Nat
  deriving DecidableEq, Repr

inductive Action
  | mq (action : Reconnect.Action)
  | call
  | disConn
  deriving DecidableEq, Repr

/-- The handle for which an action of `ReConn` calls `swartz_thread_wait`. -/
def joinedBy (system : System) : Reconnect.Action → List Nat
  | .thread index _ =>
      if system.threads[index]?.any (Thread.inside ReConnPc.atReadThrd) then
        system.members.thrdReConn.toList
      else []
  | _ => []

def State.goto (state : State) (members : Members) (pc : DisConnPc) : State :=
  { state with system := { state.system with members := members }, disConn := pc }

def disConn (state : State) : Option State :=
  let members := state.system.members
  match state.disConn with
  | .idle => none
  | .testThrd =>
      some { state with disConn := if members.thrdReConn.isSome then .readThrd else .destroyLock }
  | .readThrd =>
      some { state with
        disConn := .wait members.thrdReConn
        joins := state.joins ++ members.thrdReConn.toList }
  | .wait handle =>
      if state.system.joinable handle then some { state with disConn := .clearThrd } else none
  | .clearThrd => some (state.goto { members with thrdReConn := none } .destroyLock)
  | .destroyLock => (lockReConn members).map fun locked => state.goto locked .destroy
  | .destroy =>
      some (state.goto { members with session := none, connection := none, listening := false }
        .destroyUnlock)
  | .destroyUnlock => some (state.goto (unlockReConn members) .listLock)
  | .listLock => (lockReConn members).map fun locked => state.goto locked .clearLists
  | .clearLists =>
      some { state with listProducer := [], listConsumer := [], disConn := .listUnlock }
  | .listUnlock => some (state.goto (unlockReConn members) .returned)
  | .returned => none

def step (state : State) : Action → Option State
  | .mq action =>
      if action = .callConn ∧ state.disConn ≠ .idle then none
      else
        (Reconnect.step state.system action).map fun system =>
          { state with system := system, joins := state.joins ++ joinedBy state.system action }
  | .call =>
      if state.disConn = .idle ∧ state.system.threads.all Thread.callDone then
        some { state with disConn := .testThrd }
      else none
  | .disConn => disConn state

def start (listProducer listConsumer : List Nat) : State :=
  { system := constructed, disConn := .idle, listProducer := listProducer,
    listConsumer := listConsumer, joins := [] }

end DcCluster.DisConn
