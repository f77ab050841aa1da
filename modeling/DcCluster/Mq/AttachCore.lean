import DcCluster.Mq.MqMgrCore
import DcCluster.Mq.ReconnectHandle

/-!
`AddProducer` and `AddConsumer` beside the reconnect machinery. An Add call pushes its
object under `m_lockReConn` and attaches it to `m_pSession` after it has released the
lock; `DestroyConn` and `ReBuildConn` detach and attach every listed object inside their
critical sections. All calls work on the objects statement by statement.
-/

namespace DcCluster.Attach

open DcCluster.Lib
open DcCluster.Mq
open DcCluster.Reconnect

/-- An `MqProducer` or `MqConsumer` with the CMS objects that were created for it and have
not been deleted. Each is represented by its session, also one made on a session that
has been deleted meanwhile. -/
structure Endpoint extends MqEndpoint where
  destinations : List Nat
  handles : List Nat
  deriving DecidableEq, Repr

inductive Kind
  | producer
  | consumer
  deriving DecidableEq, Repr

inductive EndpointPc
  | readSession
  | setSession (session : Nat)
  | createDestination
  | createHandle
  | releaseDestination
  | releaseHandle
  | clearSession
  | done
  deriving DecidableEq, Repr

def release (pointer : Option Nat) (objects : List Nat) : List Nat :=
  match pointer with
  | none => objects
  | some object => objects.erase object

/-- One statement on one object. The CMS calls that create succeed, `closes` tells whether
`close` does; the exception of `close` skips the `delete`. A use of the object's session
while it is `NULL` ends the process. -/
@[grind] def Endpoint.step (session : Option Nat) (closes : Bool) (endpoint : Endpoint) :
    EndpointPc → Option (Endpoint × EndpointPc)
  | .readSession =>
      match session with
      | none => some (endpoint, .done)
      | some session => some (endpoint, .setSession session)
  | .setSession session => some ({ endpoint with pSession := some session }, .createDestination)
  | .createDestination =>
      match endpoint.pSession with
      | none => none
      | some session =>
          some ({ endpoint with
            pDestination := some session, destinations := session :: endpoint.destinations },
            .createHandle)
  | .createHandle =>
      match endpoint.pSession with
      | none => none
      | some session =>
          some ({ endpoint with pHandle := some session, handles := session :: endpoint.handles },
            .done)
  | .releaseDestination =>
      some ({ endpoint with
        pDestination := none, destinations := release endpoint.pDestination endpoint.destinations },
        .releaseHandle)
  | .releaseHandle =>
      some ({ endpoint with
        pHandle := none
        handles := if closes then release endpoint.pHandle endpoint.handles else endpoint.handles },
        .clearSession)
  | .clearSession => some ({ endpoint with pSession := none }, .done)
  | .done => none

inductive AddPc
  | push (kind : Kind) (strName : Text) (nMode : MqMsgMode)
  | create (ptr : Nat) (pc : EndpointPc)
  deriving DecidableEq, Repr

/-- `heap` holds the objects, the lists their positions in it. `work` is what the critical
section of a `DestroyConn` or `ReBuildConn` still has to do. -/
structure State where
  system : System
  heap : List Endpoint
  listProducer : List Nat
  listConsumer : List Nat
  adds : List AddPc
  work : List (Nat × EndpointPc)
  deriving DecidableEq, Repr

def State.listed (state : State) : List Nat := state.listProducer ++ state.listConsumer

inductive Action
  | mq (action : Reconnect.Action)
  | add (kind : Kind) (strName : Text) (nMode : MqMsgMode)
  | addStep (index : Nat)
  | work (closes : Bool)
  deriving DecidableEq, Repr

/-- The first statement that a thread which enters one of the two critical sections has to
carry out on each listed object. -/
def entered (system : System) : Reconnect.Action → Option EndpointPc
  | .thread index _ =>
      match system.threads[index]? with
      | some (.reconnect .destroyLock) => some .releaseDestination
      | some (.reconnect .rebuildLock) => some .readSession
      | _ => none
  | _ => none

def inSection (system : System) : Reconnect.Action → Bool
  | .thread index _ =>
      match system.threads[index]? with
      | some (.reconnect .destroy) => true
      | some (.reconnect .rebuild) => true
      | _ => false
  | _ => false

def stepMq (state : State) (action : Reconnect.Action) : Option State :=
  if inSection state.system action && !state.work.isEmpty then none
  else
    (Reconnect.step state.system action).map fun system =>
      { state with
        system := system
        work :=
          match entered state.system action with
          | none => state.work
          | some first => state.listed.map fun ptr => (ptr, first) }

def push (state : State) (index : Nat) (kind : Kind) (strName : Text) (nMode : MqMsgMode) : State :=
  let ptr := state.heap.length
  { state with
    heap := state.heap ++
      [{ toMqEndpoint := MqEndpoint.new ptr strName nMode, destinations := [], handles := [] }]
    listProducer := state.listProducer ++ if kind = .producer then [ptr] else []
    listConsumer := state.listConsumer ++ if kind = .consumer then [ptr] else []
    adds := state.adds.set index (.create ptr .readSession) }

def stepAdd (state : State) (index : Nat) : Option State :=
  match state.adds[index]? with
  | none => none
  | some (.push kind strName nMode) =>
      if state.system.members.lockReConn then none else some (push state index kind strName nMode)
  | some (.create ptr pc) =>
      match state.heap[ptr]? with
      | none => none
      | some endpoint =>
          (endpoint.step state.system.members.session true pc).map fun next =>
            { state with
              heap := state.heap.set ptr next.1
              adds := state.adds.set index (.create ptr next.2) }

def stepWork (state : State) (closes : Bool) : Option State :=
  match state.work with
  | [] => none
  | (ptr, pc) :: rest =>
      match state.heap[ptr]? with
      | none => none
      | some endpoint =>
          (endpoint.step state.system.members.session closes pc).map fun next =>
            { state with
              heap := state.heap.set ptr next.1
              work := if next.2 = .done then rest else (ptr, next.2) :: rest }

/-- The manager calls `Conn` once, on the new object, and adds to it when that call has
returned. -/
def step (state : State) : Action → Option State
  | .mq action =>
      if action = .callConn ∧ state.system.threads ≠ [] then none else stepMq state action
  | .add kind strName nMode =>
      if state.system.threads ≠ [] ∧ state.system.threads.all Thread.callDone then
        some { state with adds := state.adds ++ [.push kind strName nMode] }
      else none
  | .addStep index => stepAdd state index
  | .work closes => stepWork state closes

def start : State :=
  { system := constructed, heap := [], listProducer := [], listConsumer := [], adds := [],
    work := [] }

end DcCluster.Attach
