import DcCluster.Lib.CInt
import DcCluster.Lib.KeyedList

/-!
Executable model of the node registry of `DcServer`: the vector `m_node_vec` and
the cursor `pickNum`, and the blocks of `DcServer.cpp` that hold `m_Manmutex`.
Every block is one operation, so a list of operations is an interleaving of the
server's threads.
-/

namespace DcCluster.Server

open DcCluster.Lib

inductive RegistResult
  | success
  | invaliePara
  | undefineErr
  deriving DecidableEq, Repr

structure ClientInfo where
  Ip : String
  Port : Int
  deriving DecidableEq, Repr

structure HeartBeatInfo where
  Ip : String
  Port : Int
  deriving DecidableEq, Repr

structure DcNode where
  ip : String
  port : Int
  lHeartBeatTime : Int
  deriving DecidableEq, Repr

/-- What the loops over the vector compare: `itor->ip` and `itor->port`. -/
abbrev NodeKey := String × Int

def ClientInfo.key (clientInfo : ClientInfo) : NodeKey := (clientInfo.Ip, clientInfo.Port)

def HeartBeatInfo.key (heartBeatInfo : HeartBeatInfo) : NodeKey :=
  (heartBeatInfo.Ip, heartBeatInfo.Port)

def DcNode.key (node : DcNode) : NodeKey := (node.ip, node.port)

def DcNode.stamp (clock : Int) (node : DcNode) : DcNode := { node with lHeartBeatTime := clock }

structure Registry where
  nodeVec : List DcNode
  pickNum : Int
  deriving DecidableEq, Repr

def Registry.empty : Registry := { nodeVec := [], pickNum := 0 }

inductive Picked
  | node (node : DcNode)
  | noNode
  | outOfRange
  deriving DecidableEq, Repr

/-- Stamps the first entry with this key; the loop of `RegisterWork` and `HeartBeatWork`. -/
def stampFirst (nodeVec : List DcNode) (key : NodeKey) (clock : Int) : List DcNode × Bool :=
  modifyFirst (fun node => node.key = key) (DcNode.stamp clock) nodeVec

def registerWork (registry : Registry) (clientInfo : ClientInfo) (clock : Int) :
    Registry × RegistResult :=
  let (nodeVec, nNodeExist) := stampFirst registry.nodeVec clientInfo.key clock
  if nNodeExist then
    ({ registry with nodeVec := nodeVec }, .success)
  else
    let node : DcNode :=
      { ip := clientInfo.Ip, port := clientInfo.Port, lHeartBeatTime := clock }
    ({ registry with nodeVec := nodeVec ++ [node] }, .success)

def heartBeatWork (registry : Registry) (heartBeatInfo : HeartBeatInfo) (clock : Int) :
    Registry × Bool :=
  let (nodeVec, bret) := stampFirst registry.nodeVec heartBeatInfo.key clock
  ({ registry with nodeVec := nodeVec }, bret)

/-- The erase-while-iterating loop of `StartService`, from the iterator onwards. -/
def sweepFrom (lCheckTime : Int) : List DcNode → List DcNode
  | [] => []
  | node :: rest =>
      if lCheckTime - node.lHeartBeatTime > 60 * 1000 then sweepFrom lCheckTime rest
      else node :: sweepFrom lCheckTime rest

def sweep (registry : Registry) (lCheckTime : Int) : Registry :=
  { registry with nodeVec := sweepFrom lCheckTime registry.nodeVec }

/-- `node_size = m_node_vec.size()`: the size truncated to a 32-bit `int`. -/
def nodeSize (nodeVec : List DcNode) : Int := toInt nodeVec.length

def pick (registry : Registry) : Registry × Picked :=
  if nodeSize registry.nodeVec > 0 then
    let index := registry.pickNum.tmod (nodeSize registry.nodeVec)
    let next := { registry with pickNum := index + 1 }
    match registry.nodeVec[index.toNat]? with
    | some node => (next, if 0 ≤ index then .node node else .outOfRange)
    | none => (next, .outOfRange)
  else
    (registry, .noNode)

def failureRemoval (registry : Registry) (node : DcNode) : Registry :=
  { registry with nodeVec := registry.nodeVec.eraseP fun entry => entry.key = node.key }

inductive Op
  | registerWork (clientInfo : ClientInfo) (clock : Int)
  | heartBeatWork (heartBeatInfo : HeartBeatInfo) (clock : Int)
  | sweep (lCheckTime : Int)
  | pick
  | failureRemoval (node : DcNode)
  deriving DecidableEq, Repr

inductive Outcome
  | registered (result : RegistResult)
  | beat (bret : Bool)
  | picked (picked : Picked)
  | done
  deriving DecidableEq, Repr

def perform (registry : Registry) : Op → Registry × Outcome
  | .registerWork clientInfo clock =>
      ((registerWork registry clientInfo clock).1,
        .registered (registerWork registry clientInfo clock).2)
  | .heartBeatWork heartBeatInfo clock =>
      ((heartBeatWork registry heartBeatInfo clock).1,
        .beat (heartBeatWork registry heartBeatInfo clock).2)
  | .sweep lCheckTime => (sweep registry lCheckTime, .done)
  | .pick => ((pick registry).1, .picked (pick registry).2)
  | .failureRemoval node => (failureRemoval registry node, .done)

def performAll (registry : Registry) (ops : List Op) : Registry :=
  ops.foldl (fun state op => (perform state op).1) registry

end DcCluster.Server
