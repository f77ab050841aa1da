import DcCluster.Mq.MqMgrCore
import DcCluster.Lib.Transition

/-!
Ownership in the MQ registry. Every object that was ever allocated is either in
the list of one connection or deleted, and never both. On top of it: when the
producer cache is coherent, that is, when each cached pointer is a live producer
of the connection under the server of its URI.
-/

namespace DcCluster.Mq

open DcCluster.Lib

/-! What each operation of a connection does to the objects that it owns. -/

@[simp] theorem MqEndpoint.create_ptr (endpoint : MqEndpoint) (outcome : CreateOutcome) (session : Option Nat) :
    (endpoint.create outcome session).ptr = endpoint.ptr := by
  cases session <;> cases outcome <;> rfl

namespace MqConnection

theorem addProducer_ptrs (conn : MqConnection) (env : Env) (ptr : Nat) (strName : Text)
    (nMode : MqMsgMode) : (conn.addProducer env ptr strName nMode).ptrs.Perm (ptr :: conn.ptrs) := by
  simp only [addProducer, ptrs, List.map_append, List.map_singleton, MqEndpoint.create_ptr,
    MqEndpoint.new, List.append_assoc]
  exact List.perm_middle

theorem addConsumer_ptrs (conn : MqConnection) (env : Env) (ptr : Nat) (strName : Text)
    (nMode : MqMsgMode) (pMsgCb pUser : Nat) :
    (conn.addConsumer env ptr strName nMode pMsgCb pUser).ptrs.Perm (ptr :: conn.ptrs) := by
  simp only [addConsumer, ptrs, List.map_append, List.map_singleton, MqEndpoint.create_ptr,
    MqEndpoint.new, ← List.append_assoc]
  exact List.perm_append_singleton _ _

theorem delProducer_ptrs (conn : MqConnection) (strName : Text) (nMode : MqMsgMode) :
    (((conn.firstProducer strName nMode).map (·.ptr)).toList ++
      (conn.delProducer strName nMode).ptrs).Perm conn.ptrs := by
  have parts := (find?_append_eraseP_perm (MqEndpoint.named strName nMode) conn.listProducer).map
    (·.ptr)
  rw [List.map_append] at parts
  simp only [firstProducer, delProducer, ptrs, ← List.append_assoc, Option.toList_map]
  exact parts.append_right _

theorem delConsumer_ptrs (conn : MqConnection) (strName : Text) (nMode : MqMsgMode) :
    (((conn.firstConsumer strName nMode).map (·.ptr)).toList ++
      (conn.delConsumer strName nMode).ptrs).Perm conn.ptrs := by
  have parts := (find?_append_eraseP_perm
    (fun consumer : MqConsumer => consumer.toMqEndpoint.named strName nMode)
    conn.listConsumer).map (·.ptr)
  rw [List.map_append] at parts
  simp only [firstConsumer, delConsumer, ptrs, Option.toList_map]
  exact (List.perm_append_comm_assoc _ _ _).trans (parts.append_left _)

theorem ptrs_of_isEmptyConn {conn : MqConnection} (empty : conn.isEmptyConn = true) :
    conn.ptrs = [] := by
  simp only [isEmptyConn, Bool.and_eq_true, List.isEmpty_iff] at empty
  simp [ptrs, empty.1, empty.2]

theorem mapEndpoints_producers (conn : MqConnection) {change : MqEndpoint → MqEndpoint}
    (samePtr : ∀ endpoint, (change endpoint).ptr = endpoint.ptr) :
    (conn.mapEndpoints change).listProducer.map (·.ptr) = conn.listProducer.map (·.ptr) := by
  simp [mapEndpoints, samePtr]

theorem mapEndpoints_ptrs (conn : MqConnection) {change : MqEndpoint → MqEndpoint}
    (samePtr : ∀ endpoint, (change endpoint).ptr = endpoint.ptr) :
    (conn.mapEndpoints change).ptrs = conn.ptrs := by
  simp [mapEndpoints, ptrs, samePtr, Function.comp_def]

end MqConnection

namespace MqMgr

def live (mgr : MqMgr) : List Nat := mgr.mapConn.flatMap fun entry => entry.2.ptrs

def Owns (mgr : MqMgr) (strMqSvr : Text) (pPro : Nat) : Prop :=
  ∃ conn, mgr.findConn strMqSvr = some conn ∧ pPro ∈ conn.listProducer.map (·.ptr)

structure WellFormed (mgr : MqMgr) : Prop where
  servers : (mgr.mapConn.map Prod.fst).Nodup
  uris : (mgr.mapProcucer.map Prod.fst).Nodup
  objects : (mgr.deleted ++ mgr.live).Perm (List.range mgr.nextPtr)

theorem init_wellFormed : init.WellFormed := ⟨by simp [init], by simp [init], by simp [init, live]⟩

theorem findConn_setConn {mgr : MqMgr} {strMqSvr : Text} {old : MqConnection} (conn : MqConnection)
    (found : mgr.findConn strMqSvr = some old) :
    (mgr.setConn strMqSvr conn).findConn = Function.update mgr.findConn strMqSvr (some conn) :=
  lookup_modifyFirst (fun _ => rfl) (fun _ => rfl) (by
    rw [findConn] at found
    simp [found])

theorem findConn_eraseConn {mgr : MqMgr} (wellFormed : mgr.WellFormed) (strMqSvr : Text) :
    (mgr.eraseConn strMqSvr).findConn = Function.update mgr.findConn strMqSvr none :=
  lookup_eraseP wellFormed.servers strMqSvr

theorem setConn_servers (mgr : MqMgr) (strMqSvr : Text) (conn : MqConnection) :
    (mgr.setConn strMqSvr conn).mapConn.map Prod.fst = mgr.mapConn.map Prod.fst := by
  have sameKey (entry : Text × MqConnection) : (entry.1, conn).1 = entry.1 := rfl
  exact map_key_modifyFirst sameKey mgr.mapConn

theorem findConn_append {mgr : MqMgr} {strMqSvr : Text} (absent : mgr.findConn strMqSvr = none)
    (conn : MqConnection) :
    lookup Prod.fst Prod.snd (mgr.mapConn ++ [(strMqSvr, conn)]) =
      Function.update mgr.findConn strMqSvr (some conn) :=
  @lookup_append_fresh _ _ _ _ Prod.fst Prod.snd mgr.mapConn (strMqSvr, conn) absent

section Live

variable {mgr : MqMgr} {strMqSvr : Text} {old : MqConnection}

theorem live_perm_of_findConn (found : mgr.findConn strMqSvr = some old) :
    mgr.live.Perm (old.ptrs ++ (mgr.eraseConn strMqSvr).live) := by
  have parts := (find?_append_eraseP_perm (fun entry => entry.1 = strMqSvr) mgr.mapConn).symm
  rw [find?_of_lookup found] at parts
  exact parts.flatMap_right _

theorem live_setConn (found : mgr.findConn strMqSvr = some old) (conn : MqConnection) :
    (mgr.setConn strMqSvr conn).live.Perm (conn.ptrs ++ (mgr.eraseConn strMqSvr).live) := by
  have parts := modifyFirst_perm (fun entry => entry.1 = strMqSvr) (fun entry => (entry.1, conn))
    mgr.mapConn
  rw [find?_of_lookup found] at parts
  exact parts.flatMap_right _

end Live

theorem Owns.mem_live {mgr : MqMgr} {strMqSvr : Text} {pPro : Nat}
    (owned : mgr.Owns strMqSvr pPro) : pPro ∈ mgr.live := by
  obtain ⟨conn, found, member⟩ := owned
  refine (live_perm_of_findConn found).mem_iff.mpr ?_
  exact List.mem_append_left _ (List.mem_append_left _ member)

theorem WellFormed.not_deleted {mgr : MqMgr} (wellFormed : mgr.WellFormed) {ptr : Nat}
    (isLive : ptr ∈ mgr.live) : ptr ∉ mgr.deleted := by
  have distinct : (mgr.deleted ++ mgr.live).Nodup :=
    wellFormed.objects.nodup_iff.mpr List.nodup_range
  intro isDeleted
  exact (List.nodup_append.mp distinct).2.2 ptr isDeleted ptr isLive rfl

/-! What each operation does to the objects. -/

/-- The next state keeps the connections with their objects and may have one more, empty one. -/
structure Extends (mgr next : MqMgr) : Prop where
  conns : ∀ strMqSvr conn, mgr.findConn strMqSvr = some conn → next.findConn strMqSvr = some conn
  live : next.live = mgr.live
  servers : (mgr.mapConn.map Prod.fst).Nodup → (next.mapConn.map Prod.fst).Nodup
  cache : next.mapProcucer = mgr.mapProcucer
  deleted : next.deleted = mgr.deleted
  nextPtr : next.nextPtr = mgr.nextPtr

theorem Extends.refl (mgr : MqMgr) : Extends mgr mgr :=
  ⟨fun _ _ found => found, rfl, id, rfl, rfl, rfl⟩

theorem Extends.wellFormed {mgr next : MqMgr} (extension : Extends mgr next)
    (wellFormed : mgr.WellFormed) : next.WellFormed := by
  refine ⟨extension.servers wellFormed.servers, ?_, ?_⟩
  · rw [extension.cache]
    exact wellFormed.uris
  · rw [extension.deleted, extension.live, extension.nextPtr]
    exact wellFormed.objects

theorem addConnection_extends (mgr : MqMgr) (env : Env) (strMqSvr : Text) :
    Extends mgr (mgr.addConnection env strMqSvr).1 := by
  unfold addConnection
  cases found : mgr.findConn strMqSvr with
  | some conn => exact .refl mgr
  | none =>
      simp only
      split
      next =>
        refine ⟨?_, by simp [live, MqConnection.ptrs], ?_, rfl, rfl, rfl⟩
        · intro other conn here
          have differs : other ≠ strMqSvr := by
            rintro rfl
            simp [found] at here
          simp only [findConn]
          rw [findConn_append found, Function.update_of_ne differs]
          exact here
        · intro distinct
          exact nodup_append_fresh distinct (lookup_eq_none_iff.mp found)
      next => exact .refl mgr

theorem addConnection_found {mgr : MqMgr} {env : Env} {strMqSvr : Text} {conn : MqConnection}
    (added : (mgr.addConnection env strMqSvr).2 = some conn) :
    (mgr.addConnection env strMqSvr).1.findConn strMqSvr = some conn := by
  unfold addConnection at added ⊢
  cases found : mgr.findConn strMqSvr with
  | some old =>
      simp only [found] at added ⊢
      exact added
  | none =>
      simp only [found] at added ⊢
      split at added
      next allocated =>
        rw [if_pos allocated]
        simp only [findConn]
        rw [findConn_append found, Function.update_self]
        exact added
      next => cases added

theorem addConnection_spec (mgr : MqMgr) (env : Env) (strMqSvr : Text) :
    ∃ base pConn, mgr.addConnection env strMqSvr = (base, pConn) ∧ Extends mgr base ∧
      ∀ conn, pConn = some conn → base.findConn strMqSvr = some conn :=
  ⟨_, _, rfl, addConnection_extends mgr env strMqSvr, fun _ => addConnection_found⟩

theorem setConn_objects {mgr : MqMgr} (wellFormed : mgr.WellFormed) {strMqSvr : Text}
    {old conn : MqConnection} (found : mgr.findConn strMqSvr = some old)
    (gains : conn.ptrs.Perm (mgr.nextPtr :: old.ptrs)) :
    (mgr.deleted ++ (mgr.setConn strMqSvr conn).live).Perm (List.range (mgr.nextPtr + 1)) := by
  have grown : (mgr.setConn strMqSvr conn).live.Perm (mgr.nextPtr :: mgr.live) :=
    calc
      (mgr.setConn strMqSvr conn).live.Perm (conn.ptrs ++ (mgr.eraseConn strMqSvr).live) :=
        live_setConn found conn
      List.Perm _ (mgr.nextPtr :: (old.ptrs ++ (mgr.eraseConn strMqSvr).live)) :=
        gains.append_right _
      List.Perm _ (mgr.nextPtr :: mgr.live) := (live_perm_of_findConn found).symm.cons _
  rw [List.range_succ]
  calc
    (mgr.deleted ++ (mgr.setConn strMqSvr conn).live).Perm
        (mgr.deleted ++ (mgr.nextPtr :: mgr.live)) := grown.append_left _
    List.Perm _ (mgr.nextPtr :: (mgr.deleted ++ mgr.live)) := List.perm_middle
    List.Perm _ (mgr.nextPtr :: List.range mgr.nextPtr) := wellFormed.objects.cons _
    List.Perm _ _ := (List.perm_append_singleton _ _).symm

theorem keepOrDrop_live {mgr : MqMgr} {strMqSvr : Text} {old : MqConnection}
    (found : mgr.findConn strMqSvr = some old) (conn : MqConnection) (gone : List Nat) :
    (mgr.keepOrDrop strMqSvr conn gone).live.Perm (conn.ptrs ++ (mgr.eraseConn strMqSvr).live) := by
  unfold keepOrDrop
  split
  next empty =>
    rw [MqConnection.ptrs_of_isEmptyConn empty]
    exact .refl _
  next => exact live_setConn found conn

theorem keepOrDrop_wellFormed {mgr : MqMgr} (wellFormed : mgr.WellFormed) {strMqSvr : Text}
    {old conn : MqConnection} {gone : List Nat} (found : mgr.findConn strMqSvr = some old)
    (parts : (gone ++ conn.ptrs).Perm old.ptrs) :
    (mgr.keepOrDrop strMqSvr conn gone).WellFormed := by
  refine ⟨?_, ?_, ?_⟩
  · unfold keepOrDrop
    split
    next => exact (List.eraseP_sublist.map _).nodup wellFormed.servers
    next =>
      simp only [setConn_servers]
      exact wellFormed.servers
  · unfold keepOrDrop
    split <;> exact wellFormed.uris
  · have sameNext : (mgr.keepOrDrop strMqSvr conn gone).nextPtr = mgr.nextPtr := by
      unfold keepOrDrop
      split <;> rfl
    rw [sameNext]
    calc
      ((mgr.keepOrDrop strMqSvr conn gone).deleted ++
          (mgr.keepOrDrop strMqSvr conn gone).live).Perm
          (mgr.deleted ++ gone ++ (conn.ptrs ++ (mgr.eraseConn strMqSvr).live)) :=
        (keepOrDrop_live found conn gone).append_left _
      List.Perm _ (mgr.deleted ++ ((gone ++ conn.ptrs) ++ (mgr.eraseConn strMqSvr).live)) := by
        simp only [List.append_assoc]
        exact .refl _
      List.Perm _ (mgr.deleted ++ (old.ptrs ++ (mgr.eraseConn strMqSvr).live)) :=
        (parts.append_right _).append_left _
      List.Perm _ (mgr.deleted ++ mgr.live) := (live_perm_of_findConn found).symm.append_left _
      List.Perm _ _ := wellFormed.objects

theorem setConn_wellFormed {mgr : MqMgr} (wellFormed : mgr.WellFormed) {strMqSvr : Text}
    {old conn : MqConnection} (found : mgr.findConn strMqSvr = some old)
    (samePtrs : conn.ptrs = old.ptrs) : (mgr.setConn strMqSvr conn).WellFormed := by
  refine ⟨?_, wellFormed.uris, ?_⟩
  · rw [setConn_servers]
    exact wellFormed.servers
  · have sameLive : (mgr.setConn strMqSvr conn).live.Perm mgr.live := by
      have changed := live_setConn found conn
      rw [samePtrs] at changed
      exact changed.trans (live_perm_of_findConn found).symm
    exact (sameLive.append_left _).trans wellFormed.objects

def withProducer (mgr : MqMgr) (env : Env) (strUrl strMqSvr strDst : Text) (nMode : MqMsgMode)
    (conn : MqConnection) : MqMgr :=
  { mgr.setConn strMqSvr (conn.addProducer env mgr.nextPtr strDst nMode) with
    nextPtr := mgr.nextPtr + 1
    mapProcucer := mgr.mapProcucer ++ [(strUrl, mgr.nextPtr)] }

theorem addNewProducer_cases (mgr : MqMgr) (env : Env) (strUrl strMqSvr strDst : Text)
    (nMode : MqMsgMode) :
    (Extends mgr (mgr.addNewProducer env strUrl strMqSvr strDst nMode).1 ∧
      (mgr.addNewProducer env strUrl strMqSvr strDst nMode).2 = none) ∨
    ∃ base conn, Extends mgr base ∧ base.findConn strMqSvr = some conn ∧
      mgr.addNewProducer env strUrl strMqSvr strDst nMode =
        (base.withProducer env strUrl strMqSvr strDst nMode conn, some base.nextPtr) := by
  obtain ⟨base, pConn, connected, extension, found⟩ := mgr.addConnection_spec env strMqSvr
  unfold addNewProducer
  rw [connected]
  cases pConn with
  | none => exact .inl ⟨extension, rfl⟩
  | some conn =>
      simp only
      split
      next => exact .inr ⟨base, conn, extension, found conn rfl, rfl⟩
      next => exact .inl ⟨extension, rfl⟩

theorem withProducer_wellFormed {mgr : MqMgr} (wellFormed : mgr.WellFormed) {env : Env}
    {strUrl strMqSvr strDst : Text} {nMode : MqMsgMode} {conn : MqConnection}
    (found : mgr.findConn strMqSvr = some conn) (uncached : mgr.findProcucer strUrl = none) :
    (mgr.withProducer env strUrl strMqSvr strDst nMode conn).WellFormed := by
  refine ⟨?_, ?_, ?_⟩
  · simp only [withProducer, setConn_servers]
    exact wellFormed.servers
  · exact nodup_append_fresh wellFormed.uris (lookup_eq_none_iff.mp uncached)
  · exact setConn_objects wellFormed found (conn.addProducer_ptrs env mgr.nextPtr strDst nMode)

theorem addProducer_cases (mgr : MqMgr) (env : Env) (strUrl : Text) :
    (mgr.addProducer env strUrl).1 = mgr ∨
      ∃ strMqSvr strDst nMode, parseMqUri strUrl = .ok strMqSvr strDst nMode ∧
        mgr.findProcucer strUrl = none ∧
        mgr.addProducer env strUrl =
          ((mgr.addNewProducer env strUrl strMqSvr strDst nMode).1,
            .pointer (mgr.addNewProducer env strUrl strMqSvr strDst nMode).2) := by
  unfold addProducer
  cases parsed : parseMqUri strUrl with
  | fail => exact .inl rfl
  | outOfRange => exact .inl rfl
  | ok strMqSvr strDst nMode =>
      cases cached : mgr.findProcucer strUrl with
      | some pPro => exact .inl rfl
      | none => exact .inr ⟨strMqSvr, strDst, nMode, rfl, rfl, rfl⟩

theorem addProducer_wellFormed {mgr : MqMgr} (wellFormed : mgr.WellFormed) (env : Env)
    (strUrl : Text) : (mgr.addProducer env strUrl).1.WellFormed := by
  rcases mgr.addProducer_cases env strUrl with same | ⟨strMqSvr, strDst, nMode, _, uncached, added⟩
  · rw [same]
    exact wellFormed
  · rw [added]
    rcases mgr.addNewProducer_cases env strUrl strMqSvr strDst nMode with
      ⟨extension, _⟩ | ⟨base, conn, extension, found, result⟩
    · exact extension.wellFormed wellFormed
    · rw [result]
      refine withProducer_wellFormed (extension.wellFormed wellFormed) found ?_
      rw [findProcucer, extension.cache]
      exact uncached

theorem delProducer_wellFormed {mgr : MqMgr} (wellFormed : mgr.WellFormed) (strUrl : Text) :
    (mgr.delProducer strUrl).1.WellFormed := by
  unfold delProducer
  cases parseMqUri strUrl with
  | fail => exact wellFormed
  | outOfRange => exact wellFormed
  | ok strMqSvr strDst nMode =>
      have afterConn : (mgr.delFromConn strMqSvr strDst nMode).WellFormed := by
        unfold delFromConn
        cases found : mgr.findConn strMqSvr with
        | none => exact wellFormed
        | some conn =>
            exact keepOrDrop_wellFormed wellFormed found (conn.delProducer_ptrs strDst nMode)
      exact ⟨afterConn.servers, (List.eraseP_sublist.map _).nodup afterConn.uris, afterConn.objects⟩

theorem delConsumer_wellFormed {mgr : MqMgr} (wellFormed : mgr.WellFormed) (strUrl : Text) :
    (mgr.delConsumer strUrl).1.WellFormed := by
  unfold delConsumer
  cases parseMqUri strUrl with
  | fail => exact wellFormed
  | outOfRange => exact wellFormed
  | ok strMqSvr strDst nMode =>
      simp only [delConsumerFromConn]
      cases found : mgr.findConn strMqSvr with
      | none => exact wellFormed
      | some conn =>
          exact keepOrDrop_wellFormed wellFormed found (conn.delConsumer_ptrs strDst nMode)

def withConsumer (mgr : MqMgr) (env : Env) (strMqSvr strDst : Text) (nMode : MqMsgMode)
    (pfnMsgCb pUser : Nat) (conn : MqConnection) : MqMgr :=
  { mgr.setConn strMqSvr (conn.addConsumer env mgr.nextPtr strDst nMode pfnMsgCb pUser) with
    nextPtr := mgr.nextPtr + 1 }

theorem addConsumer_cases (mgr : MqMgr) (env : Env) (strUrl : Text) (pfnMsgCb : Option Nat)
    (pUser : Nat) :
    Extends mgr (mgr.addConsumer env strUrl pfnMsgCb pUser).1 ∨
      ∃ strMqSvr strDst nMode pfnMsgCb' base conn, Extends mgr base ∧
        base.findConn strMqSvr = some conn ∧
        (mgr.addConsumer env strUrl pfnMsgCb pUser).1 =
          base.withConsumer env strMqSvr strDst nMode pfnMsgCb' pUser conn := by
  unfold addConsumer
  cases pfnMsgCb with
  | none => exact .inl (.refl mgr)
  | some pfnMsgCb =>
      cases parseMqUri strUrl with
      | fail => exact .inl (.refl mgr)
      | outOfRange => exact .inl (.refl mgr)
      | ok strMqSvr strDst nMode =>
          simp only
          split
          next => exact .inl (.refl mgr)
          next =>
            obtain ⟨base, pConn, connected, extension, found⟩ := mgr.addConnection_spec env strMqSvr
            unfold addNewConsumer
            rw [connected]
            cases pConn with
            | none => exact .inl extension
            | some conn =>
                simp only
                split
                next =>
                  exact .inr ⟨strMqSvr, strDst, nMode, pfnMsgCb, base, conn, extension,
                    found conn rfl, rfl⟩
                next => exact .inl extension

theorem addConsumer_wellFormed {mgr : MqMgr} (wellFormed : mgr.WellFormed) (env : Env)
    (strUrl : Text) (pfnMsgCb : Option Nat) (pUser : Nat) :
    (mgr.addConsumer env strUrl pfnMsgCb pUser).1.WellFormed := by
  rcases mgr.addConsumer_cases env strUrl pfnMsgCb pUser with
    extension | ⟨strMqSvr, strDst, nMode, pfnMsgCb', base, conn, extension, found, result⟩
  · exact extension.wellFormed wellFormed
  · rw [result]
    have baseWellFormed := extension.wellFormed wellFormed
    refine ⟨?_, baseWellFormed.uris, ?_⟩
    · simp only [withConsumer, setConn_servers]
      exact baseWellFormed.servers
    · exact setConn_objects baseWellFormed found
        (conn.addConsumer_ptrs env base.nextPtr strDst nMode pfnMsgCb' pUser)

theorem sendThrough_state (mgr : MqMgr) (env : Env) (pPro : Nat) (strMsg : Text) :
    ∃ sent, (mgr.sendThrough env pPro strMsg).1 = { mgr with sent := sent } := by
  unfold sendThrough
  split
  · exact ⟨mgr.sent, rfl⟩
  · split
    · exact ⟨_, rfl⟩
    · exact ⟨mgr.sent, rfl⟩

theorem sendMsg_state (mgr : MqMgr) (env : Env) (strUrl strMsg : Text) :
    ∃ sent, (mgr.sendMsg env strUrl strMsg).1 = { mgr with sent := sent } ∨
      (mgr.sendMsg env strUrl strMsg).1 = { (mgr.addProducer env strUrl).1 with sent := sent } := by
  unfold sendMsg
  split
  next pPro _ =>
    obtain ⟨sent, same⟩ := mgr.sendThrough_state env pPro strMsg
    exact ⟨sent, .inl same⟩
  next =>
    split
    next added result => exact ⟨added.sent, .inr (by rw [result])⟩
    next added pPro result =>
      obtain ⟨sent, same⟩ := added.sendThrough_state env pPro strMsg
      exact ⟨sent, .inr (by rw [same, result])⟩
    next => exact ⟨(mgr.addProducer env strUrl).1.sent, .inr rfl⟩

theorem sendMsg_wellFormed {mgr : MqMgr} (wellFormed : mgr.WellFormed) (env : Env)
    (strUrl strMsg : Text) : (mgr.sendMsg env strUrl strMsg).1.WellFormed := by
  obtain ⟨sent, same | added⟩ := mgr.sendMsg_state env strUrl strMsg
  · rw [same]
    exact ⟨wellFormed.servers, wellFormed.uris, wellFormed.objects⟩
  · rw [added]
    have afterAdd := addProducer_wellFormed wellFormed env strUrl
    exact ⟨afterAdd.servers, afterAdd.uris, afterAdd.objects⟩

theorem fini_wellFormed {mgr : MqMgr} (wellFormed : mgr.WellFormed) : mgr.fini.WellFormed := by
  refine ⟨by simp [fini], by simp [fini], ?_⟩
  simpa [fini, live] using wellFormed.objects

theorem doReconnWork_wellFormed {mgr : MqMgr} (wellFormed : mgr.WellFormed) (env : Env)
    (strMqSvr : Text) : (mgr.doReconnWork env strMqSvr).WellFormed := by
  unfold doReconnWork
  cases found : mgr.findConn strMqSvr with
  | none => exact wellFormed
  | some conn =>
      have destroyed : conn.destroyConn.ptrs = conn.ptrs := conn.mapEndpoints_ptrs fun _ => rfl
      simp only
      split
      next =>
        have rebuilt : (conn.destroyConn.reBuildConn env mgr.nextSession).ptrs = conn.ptrs :=
          (conn.destroyConn.mapEndpoints_ptrs (by simp)).trans destroyed
        have kept := setConn_wellFormed wellFormed found rebuilt
        exact ⟨kept.servers, kept.uris, kept.objects⟩
      next => exact setConn_wellFormed wellFormed found destroyed

theorem perform_wellFormed {mgr : MqMgr} (wellFormed : mgr.WellFormed) (env : Env) (call : Call) :
    (mgr.perform env call).1.WellFormed := by
  cases call with
  | addProducer strUrl => exact addProducer_wellFormed wellFormed env strUrl
  | delProducer strUrl => exact delProducer_wellFormed wellFormed strUrl
  | addConsumer strUrl pfnMsgCb pUser =>
      exact addConsumer_wellFormed wellFormed env strUrl pfnMsgCb pUser
  | delConsumer strUrl => exact delConsumer_wellFormed wellFormed strUrl
  | sendMsg strUrl strMsg => exact sendMsg_wellFormed wellFormed env strUrl strMsg
  | fini => exact fini_wellFormed wellFormed
  | doReconnWork strMqSvr => exact doReconnWork_wellFormed wellFormed env strMqSvr

end MqMgr

end DcCluster.Mq
