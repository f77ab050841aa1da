import DcCluster.Mq.MqSend

/-!
The sending side of a node process: `dp` over the MQ manager of the process, and
the Thrift handler `RequestHandler::ClusterWork` that calls it.
-/

namespace DcCluster.Node

open DcCluster.Mq

def swartzOk : Int := 0

def swartzErr : Int := -1

def decimal (port : Int) : Text :=
  if port < 0 then '-' :: Nat.toDigits 10 port.natAbs else Nat.toDigits 10 port.natAbs

/-- `dp` with the manager that it talks to. Nothing in a node process calls
`MqMgr_DelProducer`, so the cache of its manager stays coherent. -/
structure Dp where
  uri : Text
  mgr : MqMgr
  wellFormed : mgr.WellFormed
  coherent : mgr.Coherent

namespace Dp

def afterCall (dp : Dp) (action : Call × Env) (keeps : dp.mgr.DeletesOwn action) : Dp :=
  { uri := dp.uri
    mgr := dp.mgr.afterCall action
    wellFormed := MqMgr.perform_wellFormed dp.wellFormed action.2 action.1
    coherent := (MqMgr.perform_coherent_iff dp.wellFormed dp.coherent action).mpr keeps }

def constructed (uri : Text) : Dp :=
  { uri := uri
    mgr := MqMgr.init
    wellFormed := MqMgr.init_wellFormed
    coherent := fun entry member => by simp [MqMgr.init] at member }

/-- `dp::init`. `CommMgr_Init` always returns 0; no result means that an exception
left the function. -/
def init (env : Env) (ip : Text) (port : Int) (quename : Text) : Dp × Option Int :=
  let uri := ['m', 'q', '/'] ++ ip ++ [':'] ++ decimal port ++ ['/'] ++
    ['q', 'u', 'e', 'u', 'e', '/'] ++ quename
  ((constructed uri).afterCall (.addProducer uri, env) trivial,
    match (MqMgr.init.addProducer env uri).2 with
    | .pointer (some _) => some swartzOk
    | .pointer none => some swartzErr
    | _ => none)

/-- `dp::send_message`. The handler passes the message on through `c_str()`. -/
def sendMessage (dp : Dp) (env : Env) (msg : Text) : Dp × Option Int :=
  (dp.afterCall (.sendMsg dp.uri (cString msg), env) trivial,
    match (dp.mgr.sendMsg env dp.uri (cString msg)).2 with
    | .code iRet => some (if 0 ≠ iRet then swartzErr else swartzOk)
    | _ => none)

end Dp

/-- One run of the handler: the node afterwards, what `send_message` returned and
what the handler returned. An exception leaves both without a result. -/
structure Served where
  dp : Dp
  sendMessage : Option Int
  returned : Option Bool

def clusterWork (dp : Dp) (env : Env) (msg : Text) : Served :=
  { dp := (dp.sendMessage env msg).1
    sendMessage := (dp.sendMessage env msg).2
    returned := (dp.sendMessage env msg).2.map fun _ => true }

section ClusterWork

variable (dp : Dp) (env : Env) (msg : Text)

theorem clusterWork_of_throws (throws : dp.mgr.throwsOn dp.uri = true) :
    (clusterWork dp env msg).returned = none := by
  have result := (MqMgr.sendMsg_spec dp.wellFormed dp.coherent env dp.uri (cString msg)).throws
    throws
  simp [clusterWork, Dp.sendMessage, result]

theorem clusterWork_of_takes (takes : dp.mgr.takesMessage env dp.uri = true) :
    (clusterWork dp env msg).sendMessage = some swartzOk ∧
      (clusterWork dp env msg).returned = some true ∧
      ∃ pPro, (clusterWork dp env msg).dp.mgr.sent = dp.mgr.sent ++ [(pPro, cString msg)] := by
  obtain ⟨result, pPro, sent⟩ :=
    (MqMgr.sendMsg_spec dp.wellFormed dp.coherent env dp.uri (cString msg)).takes takes
  exact ⟨by simp [clusterWork, Dp.sendMessage, result],
    by simp [clusterWork, Dp.sendMessage, result], pPro, sent⟩

/-- The handler returns `true` over a refused message as well. -/
theorem clusterWork_of_refuses (returns : dp.mgr.throwsOn dp.uri = false)
    (refuses : dp.mgr.takesMessage env dp.uri = false) :
    (clusterWork dp env msg).sendMessage = some swartzErr ∧
      (clusterWork dp env msg).returned = some true := by
  have result := (MqMgr.sendMsg_spec dp.wellFormed dp.coherent env dp.uri (cString msg)).refuses
    returns refuses
  simp [clusterWork, Dp.sendMessage, result]

theorem clusterWork_returned :
    (clusterWork dp env msg).returned = if dp.mgr.throwsOn dp.uri then none else some true := by
  cases throws : dp.mgr.throwsOn dp.uri with
  | true => exact clusterWork_of_throws dp env msg throws
  | false =>
      cases takes : dp.mgr.takesMessage env dp.uri with
      | true => exact (clusterWork_of_takes dp env msg takes).2.1
      | false => exact (clusterWork_of_refuses dp env msg throws takes).2

end ClusterWork

end DcCluster.Node
