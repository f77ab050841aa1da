import Mathlib.Data.List.Induction
import DcCluster.Mq.ProducerCache

/-!
What is registered where. As long as allocations succeed, a stored connection has a
producer or a consumer, each of them was created by a call whose URI names the
server of the connection, and no two consumers of a server share a destination and a
mode. Every call changes at most one connection, in one of five ways.
-/

namespace DcCluster.Mq

open DcCluster.Lib

def Call.uri : Call → Option Text
  | .addProducer strUrl => some strUrl
  | .addConsumer strUrl _ _ => some strUrl
  | .sendMsg strUrl _ => some strUrl
  | _ => none

def CreatedWith (actions : List (Call × Env)) (ptr : Nat) (strUrl : Text) : Prop :=
  ∃ before action after, actions = before ++ action :: after ∧ action.1.uri = some strUrl ∧
    (before.foldl MqMgr.afterCall MqMgr.init).nextPtr = ptr ∧
    ((before ++ [action]).foldl MqMgr.afterCall MqMgr.init).nextPtr = ptr + 1

@[simp] theorem MqEndpoint.create_strName (endpoint : MqEndpoint) (outcome : CreateOutcome)
    (session : Option Nat) : (endpoint.create outcome session).strName = endpoint.strName := by
  cases session <;> cases outcome <;> rfl

@[simp] theorem MqEndpoint.create_nMode (endpoint : MqEndpoint) (outcome : CreateOutcome)
    (session : Option Nat) : (endpoint.create outcome session).nMode = endpoint.nMode := by
  cases session <;> cases outcome <;> rfl

namespace MqConnection

def endpoints (conn : MqConnection) : List MqEndpoint :=
  conn.listProducer ++ conn.listConsumer.map MqConsumer.toMqEndpoint

def consumerKeys (conn : MqConnection) : List (Text × MqMsgMode) :=
  conn.listConsumer.map fun consumer => (consumer.strName, consumer.nMode)

/-- The producers and consumers belong to this server, and the consumers are distinct.
`origin` tells with which URI an object was created. -/
structure Holds (origin : Nat → Text → Prop) (strMqSvr : Text) (conn : MqConnection) : Prop where
  placed : ∀ endpoint ∈ conn.endpoints, ∃ strUrl, origin endpoint.ptr strUrl ∧
    parseMqUri strUrl = .ok strMqSvr endpoint.strName endpoint.nMode
  single : conn.consumerKeys.Nodup

section Operations

variable {origin : Nat → Text → Prop} {strMqSvr strDst : Text} {nMode : MqMsgMode}
  {conn : MqConnection}

theorem Holds.mono {later : Nat → Text → Prop} (holds : conn.Holds origin strMqSvr)
    (grows : ∀ ptr strUrl, origin ptr strUrl → later ptr strUrl) :
    conn.Holds later strMqSvr := by
  refine ⟨fun endpoint member => ?_, holds.single⟩
  obtain ⟨strUrl, created, parsed⟩ := holds.placed endpoint member
  exact ⟨strUrl, grows _ _ created, parsed⟩

theorem Holds.of_empty (empty : conn.isEmptyConn = true) : conn.Holds origin strMqSvr := by
  simp only [isEmptyConn, Bool.and_eq_true, List.isEmpty_iff] at empty
  constructor
  · simp [endpoints, empty.1, empty.2]
  · simp [consumerKeys, empty.1]

theorem Holds.addProducer {strUrl : Text} {ptr : Nat} (holds : conn.Holds origin strMqSvr)
    (env : Env) (created : origin ptr strUrl) (parsed : parseMqUri strUrl = .ok strMqSvr strDst nMode) :
    (conn.addProducer env ptr strDst nMode).Holds origin strMqSvr := by
  refine ⟨fun endpoint member => ?_, holds.single⟩
  simp only [endpoints, MqConnection.addProducer, List.mem_append, List.mem_singleton] at member
  rcases member with (old | rfl) | old
  · exact holds.placed endpoint (List.mem_append_left _ old)
  · exact ⟨strUrl, by simpa [MqEndpoint.new] using created, by simpa [MqEndpoint.new] using parsed⟩
  · exact holds.placed endpoint (List.mem_append_right _ old)

theorem Holds.addConsumer {strUrl : Text} {ptr : Nat} (holds : conn.Holds origin strMqSvr)
    (env : Env) (pMsgCb pUser : Nat) (created : origin ptr strUrl)
    (parsed : parseMqUri strUrl = .ok strMqSvr strDst nMode)
    (absent : conn.hasConsumer strDst nMode = false) :
    (conn.addConsumer env ptr strDst nMode pMsgCb pUser).Holds origin strMqSvr := by
  constructor
  · intro endpoint member
    simp only [endpoints, MqConnection.addConsumer, List.map_append, List.map_singleton,
      List.mem_append, List.mem_singleton] at member
    rcases member with old | old | rfl
    · exact holds.placed endpoint (List.mem_append_left _ old)
    · exact holds.placed endpoint (List.mem_append_right _ old)
    · exact ⟨strUrl, by simpa [MqEndpoint.new] using created, by simpa [MqEndpoint.new] using parsed⟩
  · have fresh : (strDst, nMode) ∉ conn.consumerKeys := by
      simp only [hasConsumer, List.any_eq_false, MqEndpoint.named] at absent
      rintro member
      obtain ⟨consumer, inList, same⟩ := List.mem_map.mp member
      have differs := absent consumer inList
      simp_all
    simp only [consumerKeys, MqConnection.addConsumer, List.map_append, List.map_singleton,
      MqEndpoint.create_strName, MqEndpoint.create_nMode, MqEndpoint.new]
    exact List.nodup_append_comm.mp (List.nodup_cons.mpr ⟨fresh, holds.single⟩)

theorem Holds.of_sublists {smaller : MqConnection} (holds : conn.Holds origin strMqSvr)
    (producers : smaller.listProducer.Sublist conn.listProducer)
    (consumers : smaller.listConsumer.Sublist conn.listConsumer) :
    smaller.Holds origin strMqSvr := by
  constructor
  · intro endpoint member
    exact holds.placed endpoint ((producers.append (consumers.map _)).subset member)
  · exact (consumers.map _).nodup holds.single

/-- Reconnecting changes neither identities nor names nor modes. -/
theorem Holds.mapEndpoints {change : MqEndpoint → MqEndpoint} (holds : conn.Holds origin strMqSvr)
    (samePtr : ∀ endpoint, (change endpoint).ptr = endpoint.ptr)
    (sameName : ∀ endpoint, (change endpoint).strName = endpoint.strName)
    (sameMode : ∀ endpoint, (change endpoint).nMode = endpoint.nMode) :
    (conn.mapEndpoints change).Holds origin strMqSvr := by
  constructor
  · intro endpoint member
    have changed : ∃ old ∈ conn.endpoints, endpoint = change old := by
      simp only [endpoints, MqConnection.mapEndpoints, List.map_map, List.mem_append, List.mem_map,
        Function.comp_apply] at member ⊢
      rcases member with ⟨old, inList, rfl⟩ | ⟨old, inList, rfl⟩
      · exact ⟨old, .inl inList, rfl⟩
      · exact ⟨old.toMqEndpoint, .inr ⟨old, inList, rfl⟩, rfl⟩
    obtain ⟨old, inList, rfl⟩ := changed
    rw [samePtr, sameName, sameMode]
    exact holds.placed old inList
  · simpa [consumerKeys, MqConnection.mapEndpoints, Function.comp_def, sameName, sameMode]
      using holds.single

theorem Holds.reconnected {change : MqEndpoint → MqEndpoint} (holds : conn.Holds origin strMqSvr)
    (nonempty : conn.isEmptyConn = false) (pSession : Option Nat)
    (samePtr : ∀ endpoint, (change endpoint).ptr = endpoint.ptr)
    (sameName : ∀ endpoint, (change endpoint).strName = endpoint.strName)
    (sameMode : ∀ endpoint, (change endpoint).nMode = endpoint.nMode) :
    MqConnection.isEmptyConn { conn.mapEndpoints change with pSession := pSession } = false ∧
      Holds origin strMqSvr { conn.mapEndpoints change with pSession := pSession } := by
  have mapped := holds.mapEndpoints samePtr sameName sameMode
  refine ⟨?_, mapped.placed, mapped.single⟩
  simpa [MqConnection.mapEndpoints, isEmptyConn] using nonempty

end Operations

end MqConnection

namespace MqMgr

def connOrNew (mgr : MqMgr) (env : Env) (strMqSvr : Text) : MqConnection :=
  (mgr.findConn strMqSvr).getD
    { pSession := if env.conn then some mgr.nextSession else none,
      listProducer := [], listConsumer := [] }

theorem addConnection_eq (mgr : MqMgr) {env : Env} (allocates : env.newConnection = true)
    (strMqSvr : Text) :
    ∃ base, mgr.addConnection env strMqSvr = (base, some (mgr.connOrNew env strMqSvr)) ∧
      base.findConn = Function.update mgr.findConn strMqSvr (some (mgr.connOrNew env strMqSvr)) ∧
      base.nextPtr = mgr.nextPtr := by
  unfold addConnection connOrNew
  cases found : mgr.findConn strMqSvr with
  | some conn => exact ⟨mgr, rfl, (Function.update_eq_self_iff.mpr found.symm).symm, rfl⟩
  | none =>
      simp only [allocates, ↓reduceIte, Option.getD_none]
      exact ⟨_, rfl, findConn_append found _, rfl⟩

/-- The ways in which a call changes the connection of a server. -/
inductive Changed (mgr : MqMgr) (env : Env) (strMqSvr : Text) : Call → MqConnection → Prop
  | addProducer {call strUrl strDst nMode} : call.uri = some strUrl →
      parseMqUri strUrl = .ok strMqSvr strDst nMode →
      (mgr.afterCall (call, env)).nextPtr = mgr.nextPtr + 1 →
      Changed mgr env strMqSvr call
        ((mgr.connOrNew env strMqSvr).addProducer env mgr.nextPtr strDst nMode)
  | addConsumer {call strUrl strDst nMode pMsgCb pUser} : call.uri = some strUrl →
      parseMqUri strUrl = .ok strMqSvr strDst nMode →
      (mgr.afterCall (call, env)).nextPtr = mgr.nextPtr + 1 →
      (mgr.connOrNew env strMqSvr).hasConsumer strDst nMode = false →
      Changed mgr env strMqSvr call
        ((mgr.connOrNew env strMqSvr).addConsumer env mgr.nextPtr strDst nMode pMsgCb pUser)
  | delete {call old conn} : mgr.findConn strMqSvr = some old →
      conn.listProducer.Sublist old.listProducer → conn.listConsumer.Sublist old.listConsumer →
      conn.isEmptyConn = false → Changed mgr env strMqSvr call conn
  | destroyConn {call old} : mgr.findConn strMqSvr = some old →
      Changed mgr env strMqSvr call old.destroyConn
  | reBuildConn {call old session} : mgr.findConn strMqSvr = some old →
      Changed mgr env strMqSvr call (old.destroyConn.reBuildConn env session)

section Changes

variable {mgr : MqMgr} {env : Env}

theorem findConn_update {table next : Text → Option MqConnection} {strMqSvr other : Text}
    {conn changed : MqConnection} (result : next = Function.update table strMqSvr (some changed))
    (found : next other = some conn) :
    table other = some conn ∨ other = strMqSvr ∧ conn = changed := by
  by_cases same : other = strMqSvr
  · subst other
    rw [result, Function.update_self] at found
    exact .inr ⟨rfl, (Option.some.inj found).symm⟩
  · rw [result, Function.update_of_ne same] at found
    exact .inl found

/-- The lookup table after an object was added to the connection of a server. -/
theorem findConn_added {base : MqMgr} {strMqSvr : Text} (conn : MqConnection)
    (stored : base.findConn =
      Function.update mgr.findConn strMqSvr (some (mgr.connOrNew env strMqSvr))) :
    (base.setConn strMqSvr conn).findConn = Function.update mgr.findConn strMqSvr (some conn) := by
  have found : base.findConn strMqSvr = some (mgr.connOrNew env strMqSvr) := by
    rw [stored, Function.update_self]
  rw [findConn_setConn conn found, stored, Function.update_idem]

theorem addProducer_changed (allocates : env.newConnection = true ∧ env.newEndpoint = true)
    (strUrl : Text) :
    ((mgr.addProducer env strUrl).1.findConn = mgr.findConn) ∨
      ∃ strMqSvr strDst nMode, parseMqUri strUrl = .ok strMqSvr strDst nMode ∧
        (mgr.addProducer env strUrl).1.nextPtr = mgr.nextPtr + 1 ∧
        (mgr.addProducer env strUrl).1.findConn = Function.update mgr.findConn strMqSvr
          (some ((mgr.connOrNew env strMqSvr).addProducer env mgr.nextPtr strDst nMode)) := by
  rcases mgr.addProducer_cases env strUrl with same | ⟨strMqSvr, strDst, nMode, parsed, _, added⟩
  · exact .inl (by rw [same])
  · obtain ⟨base, connected, stored, samePtr⟩ := mgr.addConnection_eq allocates.1 strMqSvr
    refine .inr ⟨strMqSvr, strDst, nMode, parsed, ?_⟩
    rw [added]
    simp only [addNewProducer, connected, allocates.2, ↓reduceIte]
    exact ⟨by rw [samePtr], by rw [samePtr]; exact findConn_added _ stored⟩

theorem connOrNew_hasConsumer (strMqSvr strDst : Text) (nMode : MqMsgMode) :
    (mgr.connOrNew env strMqSvr).hasConsumer strDst nMode = mgr.hasConsumer strMqSvr strDst nMode := by
  unfold connOrNew MqMgr.hasConsumer
  cases mgr.findConn strMqSvr with
  | some conn => rfl
  | none => simp [MqConnection.hasConsumer]

theorem addConsumer_changed (allocates : env.newConnection = true ∧ env.newEndpoint = true)
    (strUrl : Text) (pfnMsgCb : Option Nat) (pUser : Nat) :
    ((mgr.addConsumer env strUrl pfnMsgCb pUser).1.findConn = mgr.findConn) ∨
      ∃ strMqSvr strDst nMode pMsgCb, parseMqUri strUrl = .ok strMqSvr strDst nMode ∧
        (mgr.addConsumer env strUrl pfnMsgCb pUser).1.nextPtr = mgr.nextPtr + 1 ∧
        (mgr.connOrNew env strMqSvr).hasConsumer strDst nMode = false ∧
        (mgr.addConsumer env strUrl pfnMsgCb pUser).1.findConn =
          Function.update mgr.findConn strMqSvr (some ((mgr.connOrNew env strMqSvr).addConsumer env
            mgr.nextPtr strDst nMode pMsgCb pUser)) := by
  unfold addConsumer
  cases pfnMsgCb with
  | none => exact .inl rfl
  | some pMsgCb =>
      cases parsed : parseMqUri strUrl with
      | fail => exact .inl rfl
      | outOfRange => exact .inl rfl
      | ok strMqSvr strDst nMode =>
          obtain ⟨base, connected, stored, samePtr⟩ := mgr.addConnection_eq allocates.1 strMqSvr
          by_cases present : mgr.hasConsumer strMqSvr strDst nMode = true
          · simp only [present, ↓reduceIte]
            exact .inl trivial
          · have absent : (mgr.connOrNew env strMqSvr).hasConsumer strDst nMode = false := by
              rw [connOrNew_hasConsumer]
              simpa using present
            refine .inr ⟨strMqSvr, strDst, nMode, pMsgCb, rfl, ?_⟩
            simp only [if_neg present, addNewConsumer, connected, allocates.2, ↓reduceIte]
            exact ⟨by rw [samePtr], absent, by rw [samePtr]; exact findConn_added _ stored⟩

theorem keepOrDrop_changed (wellFormed : mgr.WellFormed) {strMqSvr other : Text}
    {old conn found : MqConnection} {gone : List Nat} (present : mgr.findConn strMqSvr = some old)
    (here : (mgr.keepOrDrop strMqSvr conn gone).findConn other = some found) :
    mgr.findConn other = some found ∨
      other = strMqSvr ∧ found = conn ∧ conn.isEmptyConn = false := by
  cases empty : conn.isEmptyConn with
  | true =>
      have dropped : (mgr.keepOrDrop strMqSvr conn gone).findConn =
          Function.update mgr.findConn strMqSvr none := by
        simp only [keepOrDrop, empty, ↓reduceIte]
        exact findConn_eraseConn wellFormed strMqSvr
      rw [dropped] at here
      by_cases same : other = strMqSvr
      · subst other
        rw [Function.update_self] at here
        cases here
      · rw [Function.update_of_ne same] at here
        exact .inl here
  | false =>
      have kept : (mgr.keepOrDrop strMqSvr conn gone).findConn =
          Function.update mgr.findConn strMqSvr (some conn) := by
        simp only [keepOrDrop, empty, Bool.false_eq_true, ↓reduceIte]
        exact findConn_setConn conn present
      rcases findConn_update kept here with before | ⟨same, isConn⟩
      · exact .inl before
      · exact .inr ⟨same, isConn, rfl⟩

theorem delete_changed (wellFormed : mgr.WellFormed) {call : Call} {strMqSvr other : Text}
    {old conn found : MqConnection} {gone : List Nat} (present : mgr.findConn strMqSvr = some old)
    (here : (mgr.keepOrDrop strMqSvr conn gone).findConn other = some found)
    (producers : conn.listProducer.Sublist old.listProducer)
    (consumers : conn.listConsumer.Sublist old.listConsumer) :
    mgr.findConn other = some found ∨ Changed mgr env other call found := by
  rcases keepOrDrop_changed wellFormed present here with before | ⟨rfl, rfl, nonempty⟩
  · exact .inl before
  · exact .inr (.delete present producers consumers nonempty)

/-- A call changes a connection in one of these ways, or not at all. -/
theorem perform_changed (wellFormed : mgr.WellFormed)
    (allocates : env.newConnection = true ∧ env.newEndpoint = true) (call : Call) {strMqSvr : Text}
    {conn : MqConnection} (found : (mgr.perform env call).1.findConn strMqSvr = some conn) :
    mgr.findConn strMqSvr = some conn ∨ Changed mgr env strMqSvr call conn := by
  cases call with
  | addProducer strUrl =>
      rcases addProducer_changed allocates strUrl with same | ⟨svr, strDst, nMode, parsed, ptr, stored⟩
      · exact .inl (same ▸ found)
      · rcases findConn_update stored found with before | ⟨rfl, rfl⟩
        · exact .inl before
        · exact .inr (.addProducer rfl parsed ptr)
  | delProducer strUrl =>
      simp only [perform, delProducer] at found
      split at found
      · exact .inl found
      · exact .inl found
      next svr strDst nMode parsed =>
        simp only [delFromCache, delFromConn] at found
        cases present : mgr.findConn svr with
        | none =>
            simp only [present] at found
            exact .inl found
        | some old =>
            simp only [present] at found
            have here : (mgr.keepOrDrop svr (old.delProducer strDst nMode)
                ((old.firstProducer strDst nMode).map (·.ptr)).toList).findConn strMqSvr =
                  some conn := found
            exact delete_changed wellFormed present here List.eraseP_sublist (List.Sublist.refl _)
  | addConsumer strUrl pfnMsgCb pUser =>
      rcases addConsumer_changed allocates strUrl pfnMsgCb pUser with
        same | ⟨svr, strDst, nMode, pMsgCb, parsed, ptr, absent, stored⟩
      · exact .inl (same ▸ found)
      · rcases findConn_update stored found with before | ⟨rfl, rfl⟩
        · exact .inl before
        · exact .inr (.addConsumer rfl parsed ptr absent)
  | delConsumer strUrl =>
      simp only [perform, delConsumer] at found
      split at found
      · exact .inl found
      · exact .inl found
      next svr strDst nMode parsed =>
        simp only [delConsumerFromConn] at found
        cases present : mgr.findConn svr with
        | none =>
            simp only [present] at found
            exact .inl found
        | some old =>
            simp only [present] at found
            exact delete_changed wellFormed present found (List.Sublist.refl _) List.eraseP_sublist
  | sendMsg strUrl strMsg =>
      obtain ⟨sent, same | added⟩ := mgr.sendMsg_state env strUrl strMsg
      · simp only [perform, same] at found
        exact .inl found
      · have nextPtr : (mgr.afterCall (.sendMsg strUrl strMsg, env)).nextPtr =
            (mgr.addProducer env strUrl).1.nextPtr := by
          simp only [afterCall, perform, added]
        simp only [perform, added] at found
        rcases addProducer_changed allocates strUrl with
          same | ⟨svr, strDst, nMode, parsed, ptr, stored⟩
        · exact .inl (same ▸ found)
        · rcases findConn_update stored found with before | ⟨rfl, rfl⟩
          · exact .inl before
          · exact .inr (.addProducer rfl parsed (nextPtr.trans ptr))
  | fini => simp [perform, fini, findConn] at found
  | doReconnWork svr =>
      simp only [perform, doReconnWork] at found
      cases present : mgr.findConn svr with
      | none =>
          simp only [present] at found
          exact .inl found
      | some old =>
          simp only [present] at found
          split at found
          next =>
            rcases findConn_update (findConn_setConn _ present) found with before | ⟨rfl, rfl⟩
            · exact .inl before
            · exact .inr (.reBuildConn present)
          next =>
            rcases findConn_update (findConn_setConn _ present) found with before | ⟨rfl, rfl⟩
            · exact .inl before
            · exact .inr (.destroyConn present)

end Changes

/-- Every stored connection is in use and holds what belongs to it. -/
def Consistent (origin : Nat → Text → Prop) (mgr : MqMgr) : Prop :=
  ∀ strMqSvr conn, mgr.findConn strMqSvr = some conn →
    conn.isEmptyConn = false ∧ conn.Holds origin strMqSvr

section Run

variable {mgr : MqMgr} {env : Env} {origin : Nat → Text → Prop}

theorem connOrNew_holds (consistent : mgr.Consistent origin) (strMqSvr : Text) :
    (mgr.connOrNew env strMqSvr).Holds origin strMqSvr := by
  unfold connOrNew
  cases found : mgr.findConn strMqSvr with
  | some conn => exact (consistent strMqSvr conn found).2
  | none => exact .of_empty rfl

theorem Changed.holds {call : Call} {strMqSvr : Text} {conn : MqConnection}
    (change : Changed mgr env strMqSvr call conn) (consistent : mgr.Consistent origin)
    (allocated : ∀ strUrl, call.uri = some strUrl →
      (mgr.afterCall (call, env)).nextPtr = mgr.nextPtr + 1 → origin mgr.nextPtr strUrl) :
    conn.isEmptyConn = false ∧ conn.Holds origin strMqSvr := by
  cases change with
  | addProducer isUri parsed ptr =>
      refine ⟨by simp [MqConnection.isEmptyConn, MqConnection.addProducer], ?_⟩
      exact (connOrNew_holds consistent strMqSvr).addProducer env (allocated _ isUri ptr) parsed
  | addConsumer isUri parsed ptr absent =>
      refine ⟨by simp [MqConnection.isEmptyConn, MqConnection.addConsumer], ?_⟩
      exact (connOrNew_holds consistent strMqSvr).addConsumer env _ _ (allocated _ isUri ptr) parsed
        absent
  | delete found producers consumers nonempty =>
      exact ⟨nonempty, (consistent _ _ found).2.of_sublists producers consumers⟩
  | destroyConn found =>
      obtain ⟨nonempty, holds⟩ := consistent _ _ found
      exact holds.reconnected nonempty none (fun _ => rfl) (fun _ => rfl) fun _ => rfl
  | reBuildConn found =>
      obtain ⟨nonempty, holds⟩ := consistent _ _ found
      have destroyed := holds.reconnected nonempty none (fun endpoint => rfl : ∀ endpoint,
        (MqEndpoint.destroy endpoint).ptr = endpoint.ptr) (fun _ => rfl) fun _ => rfl
      exact destroyed.2.reconnected destroyed.1 _ (by simp) (by simp) (by simp)

theorem foldl_wellFormed (actions : List (Call × Env)) :
    (actions.foldl afterCall init).WellFormed := by
  induction actions using List.reverseRecOn with
  | nil => exact init_wellFormed
  | append_singleton before action ih =>
      rw [List.foldl_append]
      exact perform_wellFormed ih action.2 action.1

theorem foldl_consistent {actions : List (Call × Env)}
    (allocates : ∀ action ∈ actions,
      action.2.newConnection = true ∧ action.2.newEndpoint = true) :
    (actions.foldl afterCall init).Consistent (CreatedWith actions) := by
  induction actions using List.reverseRecOn with
  | nil =>
      intro strMqSvr conn found
      simp [init, findConn] at found
  | append_singleton before action ih =>
      have consistent := ih fun earlier member => allocates earlier (by simp [member])
      have grown : Consistent (CreatedWith (before ++ [action])) (before.foldl afterCall init) := by
        intro strMqSvr conn found
        obtain ⟨nonempty, holds⟩ := consistent strMqSvr conn found
        refine ⟨nonempty, holds.mono ?_⟩
        rintro ptr strUrl ⟨done, call, rest, rfl, created⟩
        exact ⟨done, call, rest ++ [action], by simp, created⟩
      intro strMqSvr conn found
      have next : (before ++ [action]).foldl afterCall init =
          (before.foldl afterCall init).afterCall action := List.foldl_append
      rw [next] at found
      rcases perform_changed (foldl_wellFormed before) (allocates action (by simp)) action.1 found
        with same | change
      · exact grown strMqSvr conn same
      · refine change.holds grown fun strUrl isUri ptr => ?_
        exact ⟨before, action, [], rfl, isUri, rfl, by rw [next]; exact ptr⟩

/-- After any calls whose allocations succeed: a connection is stored iff it has a producer or
a consumer, all of them are under the server that their URI named, and there is at most one
consumer for a server, a destination and a mode. -/
theorem registrations_consistent (actions : List (Call × Env))
    (allocates : ∀ action ∈ actions,
      action.2.newConnection = true ∧ action.2.newEndpoint = true) :
    let mgr := actions.foldl afterCall init
    (mgr.mapConn.map Prod.fst).Nodup ∧
      (∀ strMqSvr conn, (strMqSvr, conn) ∈ mgr.mapConn →
        conn.endpoints ≠ [] ∧
        (∀ endpoint ∈ conn.endpoints, ∃ strUrl, CreatedWith actions endpoint.ptr strUrl ∧
          parseMqUri strUrl = .ok strMqSvr endpoint.strName endpoint.nMode) ∧
        conn.consumerKeys.Nodup) ∧
      (∀ ptr < mgr.nextPtr, ptr ∉ mgr.deleted →
        ∃ strMqSvr conn, (strMqSvr, conn) ∈ mgr.mapConn ∧
          ∃ endpoint ∈ conn.endpoints, endpoint.ptr = ptr) := by
  intro mgr
  have wellFormed : mgr.WellFormed := foldl_wellFormed actions
  refine ⟨wellFormed.servers, ?_, ?_⟩
  · intro strMqSvr conn member
    have found : mgr.findConn strMqSvr = some conn := lookup_of_mem wellFormed.servers member
    obtain ⟨nonempty, holds⟩ := foldl_consistent allocates strMqSvr conn found
    refine ⟨?_, holds.placed, holds.single⟩
    intro empty
    simp only [MqConnection.endpoints, List.append_eq_nil_iff, List.map_eq_nil_iff] at empty
    simp [MqConnection.isEmptyConn, empty.1, empty.2] at nonempty
  · intro ptr allocated notDeleted
    have isLive : ptr ∈ mgr.live := by
      have somewhere := wellFormed.objects.mem_iff.mpr (List.mem_range.mpr allocated)
      exact (List.mem_append.mp somewhere).resolve_left notDeleted
    obtain ⟨⟨strMqSvr, conn⟩, stored, inConn⟩ := List.mem_flatMap.mp isLive
    refine ⟨strMqSvr, conn, stored, ?_⟩
    rcases List.mem_append.mp inConn with producer | consumer
    · obtain ⟨endpoint, member, rfl⟩ := List.mem_map.mp producer
      exact ⟨endpoint, List.mem_append_left _ member, rfl⟩
    · obtain ⟨endpoint, member, rfl⟩ := List.mem_map.mp consumer
      exact ⟨endpoint.toMqEndpoint, List.mem_append_right _ (List.mem_map_of_mem member), rfl⟩

def mixedCalls : List (Call × Env) :=
  [(.addConsumer plainUri (some 1) 0, allSucceeds), (.addConsumer slashedUri (some 2) 0, allSucceeds),
    (.sendMsg plainUri [], allSucceeds), (.delConsumer slashedUri, allSucceeds)]

theorem registrations_consistent_mixedCalls :
    ∃ conn, (['h', ':', '1'], conn) ∈ (mixedCalls.foldl afterCall init).mapConn ∧
      conn.endpoints ≠ [] ∧ conn.consumerKeys.Nodup := by
  have stored : ((mixedCalls.foldl afterCall init).findConn ['h', ':', '1']).isSome = true := by
    decide +kernel
  obtain ⟨conn, found⟩ := Option.isSome_iff_exists.mp stored
  have member := List.mem_of_find?_eq_some (find?_of_lookup found)
  have consistent := (registrations_consistent mixedCalls (by decide)).2.1 _ conn member
  exact ⟨conn, member, consistent.1, consistent.2.2⟩

end Run

end MqMgr

end DcCluster.Mq
