import DcCluster.Lib.KeyedList
import DcCluster.Mq.MqUri

/-!
Executable model of the registry of the MQ layer: `MqMgr` with its connections
and its producer cache, and the parts of `MqConnection`, `MqProducer` and
`MqConsumer` that its calls use. Objects are identified by the order of their
allocation; `deleted` collects the identities passed to `delete`. How the calls
into CMS and the allocator end is an input of every operation.
-/

namespace DcCluster.Mq

open DcCluster.Lib

/-- How far `Create` gets before CMS throws. Setting the delivery mode or the
listener comes after both pointers are stored. -/
inductive CreateOutcome
  | noDestination
  | noHandle
  | created
  deriving DecidableEq, Repr

/-- How the calls of one operation end: the two `new(std::nothrow)`, the `try` block of
`Conn`, `Create` of the object with a given identity, and the CMS calls of `SendMsg`. -/
structure Env where
  newConnection : Bool
  conn : Bool
  newEndpoint : Bool
  create : Nat → CreateOutcome
  createBytesMessage : Bool
  send : Bool

/-- The members that `MqProducer` and `MqConsumer` share. A destination or a CMS
handle is represented by the session that created it. -/
structure MqEndpoint where
  ptr : Nat
  strName : Text
  nMode : MqMsgMode
  pSession : Option Nat
  pDestination : Option Nat
  pHandle : Option Nat
  deriving DecidableEq, Repr

abbrev MqProducer := MqEndpoint

structure MqConsumer extends MqEndpoint where
  pMsgCb : Nat
  pUser : Nat
  deriving DecidableEq, Repr

namespace MqEndpoint

def new (ptr : Nat) (strName : Text) (nMode : MqMsgMode) : MqEndpoint :=
  { ptr := ptr, strName := strName, nMode := nMode,
    pSession := none, pDestination := none, pHandle := none }

def create (endpoint : MqEndpoint) (outcome : CreateOutcome) : Option Nat → MqEndpoint
  | none => endpoint
  | some session =>
      match outcome with
      | .noDestination => { endpoint with pSession := some session }
      | .noHandle => { endpoint with pSession := some session, pDestination := some session }
      | .created =>
          { endpoint with
            pSession := some session, pDestination := some session, pHandle := some session }

def destroy (endpoint : MqEndpoint) : MqEndpoint :=
  { endpoint with pSession := none, pDestination := none, pHandle := none }

def named (strName : Text) (nMode : MqMsgMode) (endpoint : MqEndpoint) : Bool :=
  endpoint.strName = strName && endpoint.nMode = nMode

/-- `MqProducer::SendMsg` returns 0. -/
def sends (producer : MqProducer) (env : Env) : Bool :=
  producer.pSession.isSome && env.createBytesMessage && producer.pHandle.isSome && env.send

end MqEndpoint

structure MqConnection where
  pSession : Option Nat
  listProducer : List MqProducer
  listConsumer : List MqConsumer
  deriving DecidableEq, Repr

namespace MqConnection

def isEmptyConn (conn : MqConnection) : Bool :=
  conn.listConsumer.isEmpty && conn.listProducer.isEmpty

def ptrs (conn : MqConnection) : List Nat :=
  conn.listProducer.map (·.ptr) ++ conn.listConsumer.map (·.ptr)

def addProducer (conn : MqConnection) (env : Env) (ptr : Nat) (strName : Text)
    (nMode : MqMsgMode) : MqConnection :=
  let pPro := (MqEndpoint.new ptr strName nMode).create (env.create ptr) conn.pSession
  { conn with listProducer := conn.listProducer ++ [pPro] }

def addConsumer (conn : MqConnection) (env : Env) (ptr : Nat) (strName : Text)
    (nMode : MqMsgMode) (pMsgCb pUser : Nat) : MqConnection :=
  let pConsumer := (MqEndpoint.new ptr strName nMode).create (env.create ptr) conn.pSession
  { conn with listConsumer :=
      conn.listConsumer ++ [{ pConsumer with pMsgCb := pMsgCb, pUser := pUser }] }

def hasConsumer (conn : MqConnection) (strName : Text) (nMode : MqMsgMode) : Bool :=
  conn.listConsumer.any fun consumer => consumer.toMqEndpoint.named strName nMode

def firstProducer (conn : MqConnection) (strName : Text) (nMode : MqMsgMode) : Option MqProducer :=
  conn.listProducer.find? (MqEndpoint.named strName nMode)

def firstConsumer (conn : MqConnection) (strName : Text) (nMode : MqMsgMode) : Option MqConsumer :=
  conn.listConsumer.find? fun consumer => consumer.toMqEndpoint.named strName nMode

def delProducer (conn : MqConnection) (strName : Text) (nMode : MqMsgMode) : MqConnection :=
  { conn with listProducer := conn.listProducer.eraseP (MqEndpoint.named strName nMode) }

def delConsumer (conn : MqConnection) (strName : Text) (nMode : MqMsgMode) : MqConnection :=
  { conn with listConsumer :=
      conn.listConsumer.eraseP fun consumer => consumer.toMqEndpoint.named strName nMode }

def mapEndpoints (conn : MqConnection) (change : MqEndpoint → MqEndpoint) : MqConnection :=
  { conn with
    listProducer := conn.listProducer.map change
    listConsumer := conn.listConsumer.map fun consumer =>
      { change consumer.toMqEndpoint with pMsgCb := consumer.pMsgCb, pUser := consumer.pUser } }

def destroyConn (conn : MqConnection) : MqConnection :=
  { conn.mapEndpoints MqEndpoint.destroy with pSession := none }

/-- `ReBuildConn` after `Conn` opened this session. -/
def reBuildConn (conn : MqConnection) (env : Env) (session : Nat) : MqConnection :=
  { conn.mapEndpoints fun endpoint =>
      endpoint.create (env.create endpoint.ptr) (some session) with pSession := some session }

end MqConnection

/-- `sent` records the messages that a CMS producer took, with the `MqProducer` they
went through. -/
structure MqMgr where
  mapConn : List (Text × MqConnection)
  mapProcucer : List (Text × Nat)
  nextPtr : Nat
  nextSession : Nat
  deleted : List Nat
  sent : List (Nat × Text)
  deriving DecidableEq, Repr

inductive Returned
  | code (value : Int)
  | pointer (pPro : Option Nat)
  | done
  | outOfRange
  | useAfterFree
  deriving DecidableEq, Repr

namespace MqMgr

def init : MqMgr :=
  { mapConn := [], mapProcucer := [], nextPtr := 0, nextSession := 0, deleted := [], sent := [] }

def findConn (mgr : MqMgr) (strMqSvr : Text) : Option MqConnection :=
  lookup Prod.fst Prod.snd mgr.mapConn strMqSvr

def findProcucer (mgr : MqMgr) (strUrl : Text) : Option Nat :=
  lookup Prod.fst Prod.snd mgr.mapProcucer strUrl

def setConn (mgr : MqMgr) (strMqSvr : Text) (conn : MqConnection) : MqMgr :=
  { mgr with mapConn :=
      (modifyFirst (fun entry => entry.1 = strMqSvr) (fun entry => (entry.1, conn)) mgr.mapConn).1 }

def eraseConn (mgr : MqMgr) (strMqSvr : Text) : MqMgr :=
  { mgr with mapConn := mgr.mapConn.eraseP fun entry => entry.1 = strMqSvr }

/-- The object behind a pointer; `none` when it has been deleted. -/
def producerAt (mgr : MqMgr) (ptr : Nat) : Option MqProducer :=
  (mgr.mapConn.flatMap fun entry => entry.2.listProducer).find? fun producer => producer.ptr = ptr

def addConnection (mgr : MqMgr) (env : Env) (strMqSvr : Text) : MqMgr × Option MqConnection :=
  match mgr.findConn strMqSvr with
  | some conn => (mgr, some conn)
  | none =>
      if env.newConnection then
        let conn : MqConnection :=
          { pSession := if env.conn then some mgr.nextSession else none,
            listProducer := [], listConsumer := [] }
        ({ mgr with
            mapConn := mgr.mapConn ++ [(strMqSvr, conn)]
            nextSession := mgr.nextSession + 1 }, some conn)
      else (mgr, none)

def addNewProducer (mgr : MqMgr) (env : Env) (strUrl strMqSvr strDst : Text)
    (nMode : MqMsgMode) : MqMgr × Option Nat :=
  match mgr.addConnection env strMqSvr with
  | (mgr, none) => (mgr, none)
  | (mgr, some pConn) =>
      if env.newEndpoint then
        let pPro := mgr.nextPtr
        let added := mgr.setConn strMqSvr (pConn.addProducer env pPro strDst nMode)
        ({ added with
            nextPtr := mgr.nextPtr + 1
            mapProcucer := mgr.mapProcucer ++ [(strUrl, pPro)] }, some pPro)
      else (mgr, none)

def addProducer (mgr : MqMgr) (env : Env) (strUrl : Text) : MqMgr × Returned :=
  match parseMqUri strUrl with
  | .fail => (mgr, .pointer none)
  | .outOfRange => (mgr, .outOfRange)
  | .ok strMqSvr strDst nMode =>
      match mgr.findProcucer strUrl with
      | some pPro => (mgr, .pointer (some pPro))
      | none =>
          let (mgr, pPro) := mgr.addNewProducer env strUrl strMqSvr strDst nMode
          (mgr, .pointer pPro)

/-- Stores a connection after a deletion, or drops it when nothing is left on it.
`DisConn` then finds both lists empty. -/
def keepOrDrop (mgr : MqMgr) (strMqSvr : Text) (conn : MqConnection) (deleted : List Nat) : MqMgr :=
  let kept := if conn.isEmptyConn then mgr.eraseConn strMqSvr else mgr.setConn strMqSvr conn
  { kept with deleted := mgr.deleted ++ deleted }

def delFromConn (mgr : MqMgr) (strMqSvr strDst : Text) (nMode : MqMsgMode) : MqMgr :=
  match mgr.findConn strMqSvr with
  | none => mgr
  | some conn =>
      mgr.keepOrDrop strMqSvr (conn.delProducer strDst nMode)
        ((conn.firstProducer strDst nMode).map (·.ptr)).toList

def delFromCache (mgr : MqMgr) (strUrl : Text) : MqMgr :=
  { mgr with mapProcucer := mgr.mapProcucer.eraseP fun entry => entry.1 = strUrl }

def delProducer (mgr : MqMgr) (strUrl : Text) : MqMgr × Returned :=
  match parseMqUri strUrl with
  | .fail => (mgr, .code (-1))
  | .outOfRange => (mgr, .outOfRange)
  | .ok strMqSvr strDst nMode =>
      ((mgr.delFromConn strMqSvr strDst nMode).delFromCache strUrl, .code 0)

def hasConsumer (mgr : MqMgr) (strMqSvr strDst : Text) (nMode : MqMsgMode) : Bool :=
  match mgr.findConn strMqSvr with
  | some conn => conn.hasConsumer strDst nMode
  | none => false

def addNewConsumer (mgr : MqMgr) (env : Env) (strMqSvr strDst : Text) (nMode : MqMsgMode)
    (pfnMsgCb pUser : Nat) : MqMgr × Returned :=
  match mgr.addConnection env strMqSvr with
  | (mgr, none) => (mgr, .code (-1))
  | (mgr, some pConn) =>
      if env.newEndpoint then
        let conn := pConn.addConsumer env mgr.nextPtr strDst nMode pfnMsgCb pUser
        ({ mgr.setConn strMqSvr conn with nextPtr := mgr.nextPtr + 1 }, .code 0)
      else (mgr, .code (-1))

def addConsumer (mgr : MqMgr) (env : Env) (strUrl : Text) (pfnMsgCb : Option Nat) (pUser : Nat) :
    MqMgr × Returned :=
  match pfnMsgCb with
  | none => (mgr, .code (-1))
  | some pfnMsgCb =>
      match parseMqUri strUrl with
      | .fail => (mgr, .code (-1))
      | .outOfRange => (mgr, .outOfRange)
      | .ok strMqSvr strDst nMode =>
          if mgr.hasConsumer strMqSvr strDst nMode then (mgr, .code 0)
          else mgr.addNewConsumer env strMqSvr strDst nMode pfnMsgCb pUser

def delConsumerFromConn (mgr : MqMgr) (strMqSvr strDst : Text) (nMode : MqMsgMode) : MqMgr :=
  match mgr.findConn strMqSvr with
  | none => mgr
  | some conn =>
      mgr.keepOrDrop strMqSvr (conn.delConsumer strDst nMode)
        ((conn.firstConsumer strDst nMode).map (·.ptr)).toList

def delConsumer (mgr : MqMgr) (strUrl : Text) : MqMgr × Returned :=
  match parseMqUri strUrl with
  | .fail => (mgr, .code (-1))
  | .outOfRange => (mgr, .outOfRange)
  | .ok strMqSvr strDst nMode => (mgr.delConsumerFromConn strMqSvr strDst nMode, .code 0)

def sendThrough (mgr : MqMgr) (env : Env) (pPro : Nat) (strMsg : Text) : MqMgr × Returned :=
  match mgr.producerAt pPro with
  | none => (mgr, .useAfterFree)
  | some producer =>
      if producer.sends env then ({ mgr with sent := mgr.sent ++ [(pPro, strMsg)] }, .code 0)
      else (mgr, .code (-1))

def sendMsg (mgr : MqMgr) (env : Env) (strUrl strMsg : Text) : MqMgr × Returned :=
  match mgr.findProcucer strUrl with
  | some pPro => mgr.sendThrough env pPro strMsg
  | none =>
      match mgr.addProducer env strUrl with
      | (mgr, .pointer none) => (mgr, .code (-1))
      | (mgr, .pointer (some pPro)) => mgr.sendThrough env pPro strMsg
      | thrown => thrown

def fini (mgr : MqMgr) : MqMgr :=
  { mgr with
    mapConn := [], mapProcucer := []
    deleted := mgr.deleted ++ mgr.mapConn.flatMap fun entry => entry.2.ptrs }

/-- One pass of the reconnect thread of a connection between two calls. -/
def doReconnWork (mgr : MqMgr) (env : Env) (strMqSvr : Text) : MqMgr :=
  match mgr.findConn strMqSvr with
  | none => mgr
  | some conn =>
      if env.conn then
        { mgr.setConn strMqSvr (conn.destroyConn.reBuildConn env mgr.nextSession) with
          nextSession := mgr.nextSession + 1 }
      else mgr.setConn strMqSvr conn.destroyConn

end MqMgr

inductive Call
  | addProducer (strUrl : Text)
  | delProducer (strUrl : Text)
  | addConsumer (strUrl : Text) (pfnMsgCb : Option Nat) (pUser : Nat)
  | delConsumer (strUrl : Text)
  | sendMsg (strUrl strMsg : Text)
  | fini
  | doReconnWork (strMqSvr : Text)
  deriving DecidableEq, Repr

def MqMgr.perform (mgr : MqMgr) (env : Env) : Call → MqMgr × Returned
  | .addProducer strUrl => mgr.addProducer env strUrl
  | .delProducer strUrl => mgr.delProducer strUrl
  | .addConsumer strUrl pfnMsgCb pUser => mgr.addConsumer env strUrl pfnMsgCb pUser
  | .delConsumer strUrl => mgr.delConsumer strUrl
  | .sendMsg strUrl strMsg => mgr.sendMsg env strUrl strMsg
  | .fini => (mgr.fini, .done)
  | .doReconnWork strMqSvr => (mgr.doReconnWork env strMqSvr, .done)

end DcCluster.Mq
