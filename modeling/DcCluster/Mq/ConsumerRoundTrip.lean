import DcCluster.Mq.Registrations

/-!
`MqMgr_DelConsumer` undoes `MqMgr_AddConsumer`. A connection that had to be created
for the consumer is the last one stored and is dropped again; one that was there
loses the consumer at the end of its list, and stays because it is not empty.
-/

namespace DcCluster.Mq

open DcCluster.Lib

namespace MqConnection

variable {conn : MqConnection} {strName : Text} {nMode : MqMsgMode}

theorem not_named_of_absent (absent : conn.hasConsumer strName nMode = false) :
    ∀ consumer ∈ conn.listConsumer, ¬ consumer.toMqEndpoint.named strName nMode = true := by
  simpa [hasConsumer] using absent

variable (env : Env) (ptr pMsgCb pUser : Nat)

def newConsumer (conn : MqConnection) (strName : Text) (nMode : MqMsgMode) : MqConsumer :=
  { (MqEndpoint.new ptr strName nMode).create (env.create ptr) conn.pSession with
    pMsgCb := pMsgCb, pUser := pUser }

theorem newConsumer_named :
    (conn.newConsumer env ptr pMsgCb pUser strName nMode).toMqEndpoint.named strName nMode =
      true := by
  simp [newConsumer, MqEndpoint.named, MqEndpoint.new]

theorem hasConsumer_addConsumer :
    (conn.addConsumer env ptr strName nMode pMsgCb pUser).hasConsumer strName nMode = true := by
  have named := @newConsumer_named conn strName nMode env ptr pMsgCb pUser
  rw [hasConsumer, List.any_eq_true]
  exact ⟨_, List.mem_append_right _ (List.mem_singleton_self _), named⟩

variable (absent : conn.hasConsumer strName nMode = false)
include absent

theorem delConsumer_addConsumer :
    (conn.addConsumer env ptr strName nMode pMsgCb pUser).delConsumer strName nMode = conn := by
  have erased : (conn.listConsumer ++ [conn.newConsumer env ptr pMsgCb pUser strName nMode]).eraseP
      (fun consumer => consumer.toMqEndpoint.named strName nMode) = conn.listConsumer :=
    eraseP_append_last (not_named_of_absent absent)
      (newConsumer_named env ptr pMsgCb pUser)
  exact congrArg (fun listConsumer => { conn with listConsumer := listConsumer }) erased

theorem firstConsumer_addConsumer :
    ((conn.addConsumer env ptr strName nMode pMsgCb pUser).firstConsumer strName nMode).map
      (·.ptr) = some ptr := by
  have named := @newConsumer_named conn strName nMode env ptr pMsgCb pUser
  have none_before : conn.listConsumer.find?
      (fun consumer => consumer.toMqEndpoint.named strName nMode) = none :=
    List.find?_eq_none.mpr (not_named_of_absent absent)
  have first : (conn.addConsumer env ptr strName nMode pMsgCb pUser).firstConsumer strName nMode =
      some (conn.newConsumer env ptr pMsgCb pUser strName nMode) := by
    change (conn.listConsumer ++ [_]).find? _ = _
    rw [List.find?_append, none_before, Option.none_or]
    exact List.find?_cons_of_pos named
  rw [first]
  simp [newConsumer, MqEndpoint.new]

end MqConnection

namespace MqMgr

section Stored

variable {mgr : MqMgr} {strMqSvr : Text}

theorem setConn_setConn {old : MqConnection} (found : mgr.findConn strMqSvr = some old)
    (conn : MqConnection) : ((mgr.setConn strMqSvr conn).setConn strMqSvr old).mapConn =
      mgr.mapConn :=
  modifyFirst_modifyFirst (find?_of_lookup found) (by simp) rfl

theorem not_stored (absent : mgr.findConn strMqSvr = none) :
    ∀ entry ∈ mgr.mapConn, ¬ decide (entry.1 = strMqSvr) = true := by
  have missing := lookup_eq_none_iff.mp absent
  intro entry member same
  exact missing (List.mem_map.mpr ⟨entry, member, by simpa using same⟩)

end Stored

/-- The URI names a destination on a server without a consumer for it. -/
def NewConsumer (mgr : MqMgr) (strUrl : Text) : Prop :=
  ∃ strMqSvr strDst nMode, parseMqUri strUrl = .ok strMqSvr strDst nMode ∧
    mgr.hasConsumer strMqSvr strDst nMode = false

/-- Two calls that succeed: the first one registers a consumer, the second one deletes it,
and the connections and the cache are what they were before. -/
structure Undone (mgr : MqMgr) (strUrl : Text) (added removed : MqMgr × Returned) : Prop where
  adds : added.2 = .code 0
  registers : ∀ strMqSvr strDst nMode, parseMqUri strUrl = .ok strMqSvr strDst nMode →
    added.1.hasConsumer strMqSvr strDst nMode = true
  removes : removed.2 = .code 0
  deleted : removed.1.deleted = mgr.deleted ++ [mgr.nextPtr]
  conns : removed.1.mapConn = mgr.mapConn
  cache : removed.1.mapProcucer = mgr.mapProcucer

section Undo

variable {mgr : MqMgr} {env : Env} {strUrl strMqSvr strDst : Text} {nMode : MqMsgMode}
  (pfnMsgCb pUser : Nat)

theorem findConn_withConsumer {conn : MqConnection} (found : mgr.findConn strMqSvr = some conn) :
    (mgr.withConsumer env strMqSvr strDst nMode pfnMsgCb pUser conn).findConn strMqSvr =
      some (conn.addConsumer env mgr.nextPtr strDst nMode pfnMsgCb pUser) := by
  have changed := congrFun (findConn_setConn
    (conn.addConsumer env mgr.nextPtr strDst nMode pfnMsgCb pUser) found) strMqSvr
  rwa [Function.update_self] at changed

theorem delConsumer_withConsumer {conn : MqConnection}
    (found : mgr.findConn strMqSvr = some conn)
    (absent : conn.hasConsumer strDst nMode = false) :
    (mgr.withConsumer env strMqSvr strDst nMode pfnMsgCb pUser conn).delConsumerFromConn strMqSvr
        strDst nMode =
      (mgr.withConsumer env strMqSvr strDst nMode pfnMsgCb pUser conn).keepOrDrop strMqSvr conn
        [mgr.nextPtr] := by
  simp only [delConsumerFromConn, findConn_withConsumer pfnMsgCb pUser found,
    MqConnection.delConsumer_addConsumer env mgr.nextPtr pfnMsgCb pUser absent,
    MqConnection.firstConsumer_addConsumer env mgr.nextPtr pfnMsgCb pUser absent,
    Option.toList_some]

theorem undone_of_stored {base : MqMgr} {conn : MqConnection}
    (parsed : parseMqUri strUrl = .ok strMqSvr strDst nMode)
    (found : base.findConn strMqSvr = some conn) (absent : conn.hasConsumer strDst nMode = false)
    (sameDeleted : base.deleted = mgr.deleted) (samePtr : base.nextPtr = mgr.nextPtr)
    (sameCache : base.mapProcucer = mgr.mapProcucer)
    (conns : ((base.withConsumer env strMqSvr strDst nMode pfnMsgCb pUser conn).keepOrDrop strMqSvr
      conn [base.nextPtr]).mapConn = mgr.mapConn) :
    mgr.Undone strUrl (base.withConsumer env strMqSvr strDst nMode pfnMsgCb pUser conn, .code 0)
      ((base.withConsumer env strMqSvr strDst nMode pfnMsgCb pUser conn).delConsumer strUrl) := by
  have removal : (base.withConsumer env strMqSvr strDst nMode pfnMsgCb pUser conn).delConsumer
      strUrl = ((base.withConsumer env strMqSvr strDst nMode pfnMsgCb pUser conn).keepOrDrop
        strMqSvr conn [base.nextPtr], .code 0) := by
    simp only [delConsumer, parsed, delConsumer_withConsumer pfnMsgCb pUser found absent]
  rw [removal]
  refine ⟨rfl, fun svr dst mode here => ?_, rfl, ?_, conns, ?_⟩
  · obtain ⟨rfl, rfl, rfl⟩ := ParsedUri.ok.inj (parsed.symm.trans here)
    simp only [hasConsumer, findConn_withConsumer pfnMsgCb pUser found]
    exact MqConnection.hasConsumer_addConsumer env base.nextPtr pfnMsgCb pUser
  · simp only [keepOrDrop, withConsumer, setConn, sameDeleted, samePtr]
  · rw [keepOrDrop_cache]
    exact sameCache

theorem undone_of_found {conn : MqConnection}
    (parsed : parseMqUri strUrl = .ok strMqSvr strDst nMode)
    (found : mgr.findConn strMqSvr = some conn) (absent : conn.hasConsumer strDst nMode = false)
    (nonempty : conn.isEmptyConn = false) :
    mgr.Undone strUrl (mgr.withConsumer env strMqSvr strDst nMode pfnMsgCb pUser conn, .code 0)
      ((mgr.withConsumer env strMqSvr strDst nMode pfnMsgCb pUser conn).delConsumer strUrl) := by
  refine undone_of_stored pfnMsgCb pUser parsed found absent rfl rfl rfl ?_
  simp only [keepOrDrop, nonempty, Bool.false_eq_true, ↓reduceIte]
  exact setConn_setConn found _

theorem undone_of_created {base : MqMgr} {conn : MqConnection}
    (parsed : parseMqUri strUrl = .ok strMqSvr strDst nMode)
    (missing : mgr.findConn strMqSvr = none) (empty : conn.isEmptyConn = true)
    (stored : base.mapConn = mgr.mapConn ++ [(strMqSvr, conn)])
    (sameDeleted : base.deleted = mgr.deleted) (samePtr : base.nextPtr = mgr.nextPtr)
    (sameCache : base.mapProcucer = mgr.mapProcucer) :
    mgr.Undone strUrl (base.withConsumer env strMqSvr strDst nMode pfnMsgCb pUser conn, .code 0)
      ((base.withConsumer env strMqSvr strDst nMode pfnMsgCb pUser conn).delConsumer strUrl) := by
  have found : base.findConn strMqSvr = some conn := by
    rw [findConn, stored, findConn_append missing, Function.update_self]
  have noConsumer : conn.hasConsumer strDst nMode = false := by
    simp only [MqConnection.isEmptyConn, Bool.and_eq_true, List.isEmpty_iff] at empty
    simp [MqConnection.hasConsumer, empty.1]
  refine undone_of_stored pfnMsgCb pUser parsed found noConsumer sameDeleted samePtr sameCache ?_
  simp only [keepOrDrop, empty, ↓reduceIte, withConsumer, eraseConn, setConn, stored]
  rw [modifyFirst_append_last (not_stored missing) (by simp)]
  exact eraseP_append_last (not_stored missing) (by simp)

end Undo

/-- After any calls whose allocations succeed: registering a new consumer and deleting it
through the same URI gives back the connections with their lists, and the cache. -/
theorem addConsumer_delConsumer_undone (actions : List (Call × Env))
    (allocates : ∀ action ∈ actions, action.2.newConnection = true ∧ action.2.newEndpoint = true)
    (env : Env) (allocatesNow : env.newConnection = true ∧ env.newEndpoint = true)
    (strUrl : Text) (pfnMsgCb pUser : Nat)
    (isNew : (actions.foldl afterCall init).NewConsumer strUrl) :
    let mgr := actions.foldl afterCall init
    let added := mgr.addConsumer env strUrl (some pfnMsgCb) pUser
    mgr.Undone strUrl added (added.1.delConsumer strUrl) := by
  intro mgr added
  obtain ⟨strMqSvr, strDst, nMode, parsed, absent⟩ := isNew
  have adding : added = mgr.addNewConsumer env strMqSvr strDst nMode pfnMsgCb pUser := by
    simp only [added, addConsumer, parsed, mgr, absent, Bool.false_eq_true, ↓reduceIte]
  rw [adding]
  cases found : mgr.findConn strMqSvr with
  | some conn =>
      have noConsumer : conn.hasConsumer strDst nMode = false := by
        simpa only [mgr, hasConsumer, found] using absent
      have nonempty := (foldl_consistent allocates strMqSvr conn found).1
      simp only [addNewConsumer, addConnection, found, allocatesNow.2, ↓reduceIte]
      exact undone_of_found pfnMsgCb pUser parsed found noConsumer nonempty
  | none =>
      simp only [addNewConsumer, addConnection, found, allocatesNow.1, allocatesNow.2, ↓reduceIte]
      exact undone_of_created pfnMsgCb pUser parsed found rfl rfl rfl rfl rfl

theorem addConsumer_delConsumer_undone_mixedCalls :
    (mixedCalls.foldl afterCall init).Undone plainUri
      ((mixedCalls.foldl afterCall init).addConsumer allSucceeds plainUri (some 3) 4)
      (((mixedCalls.foldl afterCall init).addConsumer allSucceeds plainUri (some 3) 4).1.delConsumer
        plainUri) := by
  have isNew : (mixedCalls.foldl afterCall init).NewConsumer plainUri :=
    ⟨['h', ':', '1'], ['q'], .queue, by decide +kernel, by decide +kernel⟩
  exact addConsumer_delConsumer_undone mixedCalls (by decide) allSucceeds (by decide) plainUri 3 4
    isNew

end MqMgr

end DcCluster.Mq
