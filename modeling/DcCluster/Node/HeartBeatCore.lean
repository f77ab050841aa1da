import DcCluster.Lib.Transition
import DcCluster.Server.Registry

/-!
Executable model of any number of `NodeServer::SendHeartBeat` loops and the one
`DcServer` they talk to. A call is sent, executed by the server at most once, and
returns to the node with the server's answer or by an exception. An exception can
come at any time, and a call that was given up may still be executed later. A node
that is restarted is a new loop.
-/

namespace DcCluster.HeartBeat

open DcCluster.Lib DcCluster.Server

inductive RpcKind
  | registClient
  | heartbeat
  deriving DecidableEq, Repr

/-- One execution by the server: the clock it read, the stamp of the node's entry before and
after (`none` without an entry), and whether the answer is `SUCCESS` or `true`. -/
structure Execution where
  clock : Int
  before : Option Int
  after : Option Int
  answer : Bool
  deriving DecidableEq, Repr

/-- A call of a node. `returned` is what `RegisterClient` or `HeartBeatWork` returned. -/
structure RemoteCall where
  kind : RpcKind
  iteration : Nat
  executed : Option Execution
  returned : Option Bool
  deriving DecidableEq, Repr

inductive LoopPc
  | top
  | inRegisterClient
  | afterRegister
  | inHeartBeatWork
  | semWait
  | stopped
  deriving DecidableEq, Repr

/-- One loop; `calls` are its calls in their order. -/
structure NodeLoop where
  NodeIp : String
  NodePort : Int
  pc : LoopPc
  bregisterOk : Bool
  iteration : Nat
  calls : List RemoteCall
  deriving DecidableEq, Repr

structure System where
  registry : Registry
  loops : List NodeLoop
  deriving DecidableEq, Repr

inductive Action
  | start (NodeIp : String) (NodePort : Int)
  | proceed (loop : Nat) (bstop : Bool)
  | execute (loop call : Nat) (clock : Int)
  | returns (loop : Nat) (delivered : Bool)
  | server (op : Op)
  deriving DecidableEq, Repr

namespace NodeLoop

def key (loop : NodeLoop) : NodeKey := (loop.NodeIp, loop.NodePort)

def constructed (NodeIp : String) (NodePort : Int) : NodeLoop :=
  { NodeIp := NodeIp, NodePort := NodePort, pc := .top, bregisterOk := false, iteration := 0,
    calls := [] }

def send (loop : NodeLoop) (kind : RpcKind) (pc : LoopPc) : NodeLoop :=
  { loop with
    pc := pc
    calls := loop.calls ++
      [{ kind := kind, iteration := loop.iteration, executed := none, returned := none }] }

/-- The loop goes on to its next call or to `swartz_sem_wait`, and past it. -/
def proceed (loop : NodeLoop) (bstop : Bool) : Option NodeLoop :=
  match loop.pc with
  | .top =>
      some (if loop.bregisterOk = false then loop.send .registClient .inRegisterClient
        else { loop with pc := .afterRegister })
  | .afterRegister =>
      some (if loop.bregisterOk then loop.send .heartbeat .inHeartBeatWork
        else { loop with pc := .semWait })
  | .semWait =>
      some (if bstop then { loop with pc := .stopped }
        else { loop with pc := .top, iteration := loop.iteration + 1 })
  | _ => none

/-- What the call returns: the answer, which only exists once it was executed, or `false` after
an exception. -/
def result (call : RemoteCall) (delivered : Bool) : Option Bool :=
  if delivered then call.executed.map Execution.answer else some false

def returns (loop : NodeLoop) (delivered : Bool) : Option NodeLoop := do
  let call ← loop.calls.getLast?
  let success ← result call delivered
  let calls := loop.calls.dropLast ++ [{ call with returned := some success }]
  match loop.pc with
  | .inRegisterClient =>
      some { loop with
        pc := .afterRegister, bregisterOk := loop.bregisterOk || success, calls := calls }
  | .inHeartBeatWork =>
      some { loop with
        pc := .semWait, bregisterOk := loop.bregisterOk && success, calls := calls }
  | _ => none

end NodeLoop

/-- The operation of the server that executes a call, and its answer. -/
def serve (registry : Registry) (loop : NodeLoop) (kind : RpcKind) (clock : Int) :
    Registry × Bool :=
  match kind with
  | .registClient =>
      let (next, resType) := registerWork registry ⟨loop.NodeIp, loop.NodePort⟩ clock
      (next, resType = .success)
  | .heartbeat => heartBeatWork registry ⟨loop.NodeIp, loop.NodePort⟩ clock

def execution (registry : Registry) (loop : NodeLoop) (kind : RpcKind) (clock : Int) : Execution :=
  { clock := clock
    before := registry.table loop.key
    after := (serve registry loop kind clock).1.table loop.key
    answer := (serve registry loop kind clock).2 }

def execute (system : System) (index call : Nat) (clock : Int) : Option System := do
  let loop ← system.loops[index]?
  let request ← loop.calls[call]?
  if request.executed.isSome then none
  else
    let done := { request with
      executed := some (execution system.registry loop request.kind clock) }
    some
      { registry := (serve system.registry loop request.kind clock).1
        loops := system.loops.set index { loop with calls := loop.calls.set call done } }

def step (system : System) : Action → Option System
  | .start NodeIp NodePort =>
      some { system with loops := system.loops ++ [NodeLoop.constructed NodeIp NodePort] }
  | .proceed index bstop => do
      let loop ← system.loops[index]?
      let next ← loop.proceed bstop
      some { system with loops := system.loops.set index next }
  | .execute index call clock => execute system index call clock
  | .returns index delivered => do
      let loop ← system.loops[index]?
      let next ← loop.returns delivered
      some { system with loops := system.loops.set index next }
  | .server op => some { system with registry := (perform system.registry op).1 }

def initial : System := { registry := Registry.empty, loops := [] }

end DcCluster.HeartBeat
