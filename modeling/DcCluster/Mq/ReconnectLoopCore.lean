import DcCluster.Lib.Outcomes
import DcCluster.Mq.MqMgrCore

/-!
Executable model of the loop of `DoReconnWork` with every call into CMS on its own,
each of which may throw. The `try` blocks are the ones of the source: what a block
stored before it was left stays stored.
-/

namespace DcCluster.Mq

open DcCluster.Lib

/-- A CMS connection or session is represented by the attempt of `Conn` that made it. -/
structure ConnMembers extends MqConnection where
  pConnection : Option Nat
  attempts : Nat
  deriving DecidableEq, Repr

namespace MqEndpoint

/-- `createQueue` or `createTopic`, then `createProducer` or `createConsumer`, then
`setDeliveryMode` or `setMessageListener`. -/
def createOutcome : Calls CreateOutcome := do
  if ← succeeds then
    if ← succeeds then
      let _ ← succeeds
      return .created
    else return .noHandle
  else return .noDestination

def createCalls (pSession : Option Nat) (endpoint : MqEndpoint) : Calls MqEndpoint :=
  match pSession with
  | none => return endpoint
  | some session => return endpoint.create (← createOutcome) (some session)

/-- `delete` of a pointer in a `try` block; the pointer is `NULL` afterwards, also in the
handlers. -/
def deletePtr : Option Nat → Calls (Option Nat)
  | none => return none
  | some _ => do
      let _ ← succeeds
      return none

def closePtr : Option Nat → Calls (Option Nat)
  | none => return none
  | some _ => do
      if ← succeeds then
        let _ ← succeeds
        return none
      else return none

def releaseDst (pdst pCp : Option Nat) : Calls (Option Nat × Option Nat) := do
  let pdst ← deletePtr pdst
  let pCp ← closePtr pCp
  return (pdst, pCp)

def destroyCalls (endpoint : MqEndpoint) : Calls MqEndpoint := do
  let (pDestination, pHandle) ← releaseDst endpoint.pDestination endpoint.pHandle
  return { endpoint with pDestination := pDestination, pHandle := pHandle, pSession := none }

end MqEndpoint

namespace MqConsumer

def createCalls (pSession : Option Nat) (consumer : MqConsumer) : Calls MqConsumer :=
  return { consumer with toMqEndpoint := ← consumer.toMqEndpoint.createCalls pSession }

def destroyCalls (consumer : MqConsumer) : Calls MqConsumer :=
  return { consumer with toMqEndpoint := ← consumer.toMqEndpoint.destroyCalls }

end MqConsumer

namespace ConnMembers

def destroyConn (members : ConnMembers) : Calls ConnMembers := do
  let listProducer ← members.listProducer.mapM MqEndpoint.destroyCalls
  let listConsumer ← members.listConsumer.mapM MqConsumer.destroyCalls
  let pSession ← MqEndpoint.deletePtr members.pSession
  let pConnection ← MqEndpoint.deletePtr members.pConnection
  return { members with
    listProducer := listProducer, listConsumer := listConsumer
    pSession := pSession, pConnection := pConnection }

/-- `Conn` in the reconnect thread, where `m_bReConn` is set and the handler only
returns `false`. -/
def conn (members : ConnMembers) : Calls (ConnMembers × Bool) := do
  let fails := { members with attempts := members.attempts + 1 }
  -- `createCMSConnectionFactory`
  unless ← succeeds do return (fails, false)
  -- `createConnection`
  unless ← succeeds do return (fails, false)
  let connected := { fails with pConnection := some members.attempts }
  -- `setExceptionListener`
  unless ← succeeds do return (connected, false)
  -- `start`
  unless ← succeeds do return (connected, false)
  -- `createSession`
  unless ← succeeds do return (connected, false)
  return ({ connected with pSession := some members.attempts }, true)

def reBuildConn (members : ConnMembers) : Calls (ConnMembers × Bool) := do
  let (connected, success) ← members.conn
  if success then
    let listProducer ← connected.listProducer.mapM (MqEndpoint.createCalls connected.pSession)
    let listConsumer ← connected.listConsumer.mapM (MqConsumer.createCalls connected.pSession)
    return ({ connected with listProducer := listProducer, listConsumer := listConsumer }, true)
  else return (connected, false)

structure Pass where
  destroyed : ConnMembers
  rebuilt : ConnMembers
  success : Bool

def pass (members : ConnMembers) : Calls Pass := do
  let destroyed ← members.destroyConn
  let (rebuilt, success) ← destroyed.reBuildConn
  return { destroyed := destroyed, rebuilt := rebuilt, success := success }

/-- At most this many iterations, and the members if the loop was left within them, by the
`break` or by a token on `m_sem`. -/
def doReconnWork (members : ConnMembers) : Nat → Calls (List Pass × Option ConnMembers)
  | 0 => return ([], none)
  | iterations + 1 => do
      let first ← members.pass
      if first.success then return ([first], some first.rebuilt)
      else if ← succeeds then return ([first], some first.rebuilt)
      else
        let (passes, left) ← doReconnWork first.rebuilt iterations
        return (first :: passes, left)

end ConnMembers

end DcCluster.Mq
