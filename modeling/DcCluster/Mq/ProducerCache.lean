import DcCluster.Mq.MqMgr

/-!
The producer cache `m_mapProcucer`. Its keys are whole URIs, whereas a connection
finds its producers by destination and mode. A deletion through one URI can
therefore hit the producer that another URI has cached; this is the only way in
which the cache gets out of step with the connections.
-/

namespace DcCluster.Mq

open DcCluster.Lib

namespace MqMgr

/-- Each cached pointer is a live producer of the connection under its URI's server. -/
def Coherent (mgr : MqMgr) : Prop :=
  ∀ entry ∈ mgr.mapProcucer, entry.2 ∉ mgr.deleted ∧
    ∃ strMqSvr strDst nMode, parseMqUri entry.1 = .ok strMqSvr strDst nMode ∧
      mgr.Owns strMqSvr entry.2

/-- The cache is coherent, and no send goes through a deleted producer. -/
structure CacheSafe (mgr : MqMgr) : Prop where
  coherent : mgr.Coherent
  sends : ∀ env strUrl strMsg, (mgr.sendMsg env strUrl strMsg).2 ≠ .useAfterFree

/-- `MqMgr_DelProducer` hits no producer that another URI has cached. -/
def DeletesOwn (mgr : MqMgr) (action : Call × Env) : Prop :=
  match action.1 with
  | .delProducer strUrl =>
      ∀ strMqSvr strDst nMode, parseMqUri strUrl = .ok strMqSvr strDst nMode →
        ∀ conn, mgr.findConn strMqSvr = some conn →
          ∀ producer, conn.firstProducer strDst nMode = some producer →
            ∀ entry ∈ mgr.mapProcucer, entry.2 = producer.ptr → entry.1 = strUrl
  | _ => True

def afterCall (mgr : MqMgr) (action : Call × Env) : MqMgr := (mgr.perform action.2 action.1).1

theorem WellFormed.coherent {mgr : MqMgr} (wellFormed : mgr.WellFormed)
    (attached : ∀ entry ∈ mgr.mapProcucer, ∃ strMqSvr strDst nMode,
      parseMqUri entry.1 = .ok strMqSvr strDst nMode ∧ mgr.Owns strMqSvr entry.2) :
    mgr.Coherent := by
  intro entry member
  obtain ⟨strMqSvr, strDst, nMode, parsed, owned⟩ := attached entry member
  exact ⟨wellFormed.not_deleted owned.mem_live, strMqSvr, strDst, nMode, parsed, owned⟩

theorem Coherent.of_kept {mgr next : MqMgr} (coherent : mgr.Coherent)
    (wellFormed : next.WellFormed)
    (cache : ∀ entry ∈ next.mapProcucer, entry ∈ mgr.mapProcucer)
    (kept : ∀ entry ∈ next.mapProcucer, ∀ strMqSvr, mgr.Owns strMqSvr entry.2 →
      next.Owns strMqSvr entry.2) : next.Coherent := by
  refine wellFormed.coherent fun entry member => ?_
  obtain ⟨_, strMqSvr, strDst, nMode, parsed, owned⟩ := coherent entry (cache entry member)
  exact ⟨strMqSvr, strDst, nMode, parsed, kept entry member strMqSvr owned⟩

theorem Extends.owns {mgr next : MqMgr} (extension : Extends mgr next) {strMqSvr : Text} {ptr : Nat}
    (owned : mgr.Owns strMqSvr ptr) : next.Owns strMqSvr ptr := by
  obtain ⟨conn, found, member⟩ := owned
  exact ⟨conn, extension.conns strMqSvr conn found, member⟩

theorem setConn_owns {mgr : MqMgr} {strMqSvr other : Text} {old conn : MqConnection} {ptr : Nat}
    (found : mgr.findConn strMqSvr = some old)
    (stays : ptr ∈ old.listProducer.map (·.ptr) → ptr ∈ conn.listProducer.map (·.ptr))
    (owned : mgr.Owns other ptr) : (mgr.setConn strMqSvr conn).Owns other ptr := by
  obtain ⟨holder, here, member⟩ := owned
  simp only [Owns, findConn_setConn conn found]
  by_cases same : other = strMqSvr
  · subst other
    rw [Function.update_self]
    have isOld : old = holder := Option.some.inj (found.symm.trans here)
    exact ⟨conn, rfl, stays (isOld ▸ member)⟩
  · rw [Function.update_of_ne same]
    exact ⟨holder, here, member⟩

theorem keepOrDrop_owns {mgr : MqMgr} (wellFormed : mgr.WellFormed) {strMqSvr other : Text}
    {old conn : MqConnection} {ptr : Nat} (gone : List Nat)
    (found : mgr.findConn strMqSvr = some old)
    (stays : ptr ∈ old.listProducer.map (·.ptr) → ptr ∈ conn.listProducer.map (·.ptr))
    (owned : mgr.Owns other ptr) : (mgr.keepOrDrop strMqSvr conn gone).Owns other ptr := by
  unfold keepOrDrop
  split
  next empty =>
    change (mgr.eraseConn strMqSvr).Owns other ptr
    obtain ⟨holder, here, member⟩ := owned
    have differs : other ≠ strMqSvr := by
      rintro rfl
      have isOld : old = holder := Option.some.inj (found.symm.trans here)
      have remains := stays (isOld ▸ member)
      simp only [MqConnection.isEmptyConn, Bool.and_eq_true, List.isEmpty_iff] at empty
      simp [empty.2] at remains
    simp only [Owns, findConn_eraseConn wellFormed, Function.update_of_ne differs]
    exact ⟨holder, here, member⟩
  next => exact setConn_owns found stays owned

@[simp] theorem keepOrDrop_cache (mgr : MqMgr) (strMqSvr : Text) (conn : MqConnection)
    (gone : List Nat) : (mgr.keepOrDrop strMqSvr conn gone).mapProcucer = mgr.mapProcucer := by
  unfold keepOrDrop
  split <;> rfl

theorem mem_delProducer {conn : MqConnection} {strDst : Text} {nMode : MqMsgMode} {ptr : Nat}
    (member : ptr ∈ conn.listProducer.map (·.ptr))
    (other : ∀ producer, conn.firstProducer strDst nMode = some producer → ptr ≠ producer.ptr) :
    ptr ∈ (conn.delProducer strDst nMode).listProducer.map (·.ptr) := by
  obtain ⟨producer, inList, rfl⟩ := List.mem_map.mp member
  have parts := (find?_append_eraseP_perm (MqEndpoint.named strDst nMode)
    conn.listProducer).mem_iff.mpr inList
  rcases List.mem_append.mp parts with first | rest
  · exact absurd rfl (other producer (Option.mem_toList.mp first))
  · exact List.mem_map_of_mem rest

section Steps

variable {mgr : MqMgr} (wellFormed : mgr.WellFormed) (coherent : mgr.Coherent)
include wellFormed coherent

theorem withProducer_coherent {env : Env} {strUrl strMqSvr strDst : Text} {nMode : MqMsgMode}
    {conn : MqConnection} (found : mgr.findConn strMqSvr = some conn)
    (uncached : mgr.findProcucer strUrl = none)
    (parsed : parseMqUri strUrl = .ok strMqSvr strDst nMode) :
    (mgr.withProducer env strUrl strMqSvr strDst nMode conn).Coherent := by
  refine (withProducer_wellFormed wellFormed found uncached).coherent fun entry member => ?_
  rcases List.mem_append.mp member with old | new
  · obtain ⟨_, server, dst, mode, parsedOld, owned⟩ := coherent entry old
    refine ⟨server, dst, mode, parsedOld, ?_⟩
    refine setConn_owns found (fun inList => ?_) owned
    simp only [MqConnection.addProducer, List.map_append]
    exact List.mem_append_left _ inList
  · obtain rfl := List.mem_singleton.mp new
    refine ⟨strMqSvr, strDst, nMode, parsed, conn.addProducer env mgr.nextPtr strDst nMode, ?_, ?_⟩
    · change (mgr.setConn strMqSvr _).findConn strMqSvr = _
      rw [findConn_setConn _ found, Function.update_self]
    · simp [MqConnection.addProducer, MqEndpoint.new]

theorem addProducer_coherent (env : Env) (strUrl : Text) :
    (mgr.addProducer env strUrl).1.Coherent := by
  rcases mgr.addProducer_cases env strUrl with same | ⟨strMqSvr, strDst, nMode, parsed, uncached, added⟩
  · rw [same]
    exact coherent
  · rw [added]
    rcases mgr.addNewProducer_cases env strUrl strMqSvr strDst nMode with
      ⟨extension, _⟩ | ⟨base, conn, extension, found, result⟩
    · exact coherent.of_kept (extension.wellFormed wellFormed)
        (fun entry member => extension.cache ▸ member) (fun _ _ _ owned => extension.owns owned)
    · rw [result]
      have baseWellFormed := extension.wellFormed wellFormed
      have baseCoherent : base.Coherent := coherent.of_kept baseWellFormed
        (fun entry member => extension.cache ▸ member) (fun _ _ _ owned => extension.owns owned)
      refine withProducer_coherent baseWellFormed baseCoherent found ?_ parsed
      rw [findProcucer, extension.cache]
      exact uncached

theorem sendMsg_coherent (env : Env) (strUrl strMsg : Text) :
    (mgr.sendMsg env strUrl strMsg).1.Coherent := by
  obtain ⟨sent, same | added⟩ := mgr.sendMsg_state env strUrl strMsg
  · rw [same]
    exact coherent
  · rw [added]
    exact addProducer_coherent wellFormed coherent env strUrl

theorem addConsumer_coherent (env : Env) (strUrl : Text) (pfnMsgCb : Option Nat) (pUser : Nat) :
    (mgr.addConsumer env strUrl pfnMsgCb pUser).1.Coherent := by
  have nextWellFormed := addConsumer_wellFormed wellFormed env strUrl pfnMsgCb pUser
  rcases mgr.addConsumer_cases env strUrl pfnMsgCb pUser with
    extension | ⟨strMqSvr, strDst, nMode, pfnMsgCb', base, conn, extension, found, result⟩
  · exact coherent.of_kept nextWellFormed (fun entry member => extension.cache ▸ member)
      (fun _ _ _ owned => extension.owns owned)
  · rw [result] at nextWellFormed ⊢
    refine coherent.of_kept nextWellFormed (fun entry member => ?_) (fun entry _ server owned => ?_)
    · rw [← extension.cache]
      exact member
    · exact setConn_owns found id (extension.owns owned)

theorem delConsumer_coherent (strUrl : Text) : (mgr.delConsumer strUrl).1.Coherent := by
  have nextWellFormed := delConsumer_wellFormed wellFormed strUrl
  unfold delConsumer at nextWellFormed ⊢
  cases parsed : parseMqUri strUrl with
  | fail => exact coherent
  | outOfRange => exact coherent
  | ok strMqSvr strDst nMode =>
      simp only [parsed, delConsumerFromConn] at nextWellFormed ⊢
      cases found : mgr.findConn strMqSvr with
      | none => exact coherent
      | some conn =>
          simp only [found] at nextWellFormed ⊢
          refine coherent.of_kept nextWellFormed (fun entry member => ?_) (fun _ _ _ owned => ?_)
          · rwa [keepOrDrop_cache] at member
          · exact keepOrDrop_owns wellFormed _ found id owned

theorem doReconnWork_coherent (env : Env) (strMqSvr : Text) :
    (mgr.doReconnWork env strMqSvr).Coherent := by
  have nextWellFormed := doReconnWork_wellFormed wellFormed env strMqSvr
  unfold doReconnWork at nextWellFormed ⊢
  cases found : mgr.findConn strMqSvr with
  | none => exact coherent
  | some conn =>
      have destroyed : conn.destroyConn.listProducer.map (·.ptr) = conn.listProducer.map (·.ptr) :=
        conn.mapEndpoints_producers fun _ => rfl
      simp only [found] at nextWellFormed ⊢
      split
      next opened =>
        rw [if_pos opened] at nextWellFormed
        refine coherent.of_kept nextWellFormed (fun _ member => member) (fun _ _ _ owned => ?_)
        refine setConn_owns found (fun inList => ?_) owned
        have rebuilt := conn.destroyConn.mapEndpoints_producers
          (fun endpoint => endpoint.create_ptr (env.create endpoint.ptr) (some mgr.nextSession))
        rw [← destroyed, ← rebuilt] at inList
        exact inList
      next failed =>
        rw [if_neg failed] at nextWellFormed
        refine coherent.of_kept nextWellFormed (fun _ member => member) (fun _ _ _ owned => ?_)
        exact setConn_owns found (fun inList => destroyed ▸ inList) owned

theorem delProducer_coherent_iff (env : Env) (strUrl : Text) :
    (mgr.delProducer strUrl).1.Coherent ↔ mgr.DeletesOwn (.delProducer strUrl, env) := by
  have nextWellFormed := delProducer_wellFormed wellFormed strUrl
  unfold delProducer at nextWellFormed ⊢
  cases parsed : parseMqUri strUrl with
  | fail => simp [DeletesOwn, parsed, coherent]
  | outOfRange => simp [DeletesOwn, parsed, coherent]
  | ok strMqSvr strDst nMode =>
      simp only [parsed, delFromConn] at nextWellFormed ⊢
      have remaining {entry : Text × Nat} {cache : List (Text × Nat)}
          (member : entry ∈ cache) (other : entry.1 ≠ strUrl) :
          entry ∈ cache.eraseP fun cached => cached.1 = strUrl :=
        (List.mem_eraseP_of_neg (by simpa using other)).mpr member
      cases found : mgr.findConn strMqSvr with
      | none =>
          simp only [found] at nextWellFormed ⊢
          refine iff_of_true ?_ ?_
          · exact coherent.of_kept nextWellFormed (fun _ member => List.mem_of_mem_eraseP member)
              (fun _ _ _ owned => owned)
          · rintro server dst mode here conn present
            obtain ⟨rfl, rfl, rfl⟩ := ParsedUri.ok.inj (parsed.symm.trans here)
            simp [found] at present
      | some conn =>
          simp only [found] at nextWellFormed ⊢
          constructor
          · rintro nextCoherent server dst mode here holder present producer first entry member hit
            obtain ⟨rfl, rfl, rfl⟩ := ParsedUri.ok.inj (parsed.symm.trans here)
            obtain rfl := Option.some.inj (found.symm.trans present)
            by_contra other
            have stillCached := remaining member other
            have notDeleted := (nextCoherent entry (by
              simp only [delFromCache, keepOrDrop_cache]
              exact stillCached)).1
            refine notDeleted ?_
            simp only [delFromCache, keepOrDrop, first, hit]
            simp
          · intro ownProducer
            refine coherent.of_kept nextWellFormed (fun entry member => ?_)
              (fun entry member server owned => ?_)
            · simp only [delFromCache, keepOrDrop_cache] at member
              exact List.mem_of_mem_eraseP member
            · simp only [delFromCache, keepOrDrop_cache] at member
              refine keepOrDrop_owns wellFormed ((conn.firstProducer strDst nMode).map (·.ptr)).toList
                found (fun inList => ?_) owned
              refine mem_delProducer inList fun producer first hit => ?_
              have sameUri := ownProducer strMqSvr strDst nMode parsed conn found producer first entry
                (List.mem_of_mem_eraseP member) hit
              have absent : strUrl ∉ (mgr.mapProcucer.eraseP fun cached => cached.1 = strUrl).map
                  Prod.fst := by
                refine (@lookup_eq_none_iff _ _ _ _ Prod.fst Prod.snd _ _).mp ?_
                rw [lookup_eraseP wellFormed.uris, Function.update_self]
              exact absent (List.mem_map.mpr ⟨entry, member, sameUri⟩)

omit coherent in
theorem fini_coherent : mgr.fini.Coherent :=
  (fini_wellFormed wellFormed).coherent fun entry member => by simp [fini] at member

theorem perform_coherent_iff (action : Call × Env) :
    (mgr.afterCall action).Coherent ↔ mgr.DeletesOwn action := by
  obtain ⟨call, env⟩ := action
  cases call with
  | addProducer strUrl =>
      exact iff_of_true (addProducer_coherent wellFormed coherent env strUrl) trivial
  | delProducer strUrl => exact delProducer_coherent_iff wellFormed coherent env strUrl
  | addConsumer strUrl pfnMsgCb pUser =>
      exact iff_of_true (addConsumer_coherent wellFormed coherent env strUrl pfnMsgCb pUser) trivial
  | delConsumer strUrl => exact iff_of_true (delConsumer_coherent wellFormed coherent strUrl) trivial
  | sendMsg strUrl strMsg =>
      exact iff_of_true (sendMsg_coherent wellFormed coherent env strUrl strMsg) trivial
  | fini => exact iff_of_true (fini_coherent wellFormed) trivial
  | doReconnWork strMqSvr =>
      exact iff_of_true (doReconnWork_coherent wellFormed coherent env strMqSvr) trivial

end Steps

theorem Owns.producerAt {mgr : MqMgr} {strMqSvr : Text} {ptr : Nat} (owned : mgr.Owns strMqSvr ptr) :
    (mgr.producerAt ptr).isSome = true := by
  obtain ⟨conn, found, member⟩ := owned
  obtain ⟨producer, inList, rfl⟩ := List.mem_map.mp member
  rw [MqMgr.producerAt, List.find?_isSome]
  refine ⟨producer, List.mem_flatMap.mpr ⟨(strMqSvr, conn), ?_, inList⟩, by simp⟩
  exact List.mem_of_find?_eq_some (find?_of_lookup found)

theorem sendThrough_of_owned {mgr : MqMgr} {strMqSvr : Text} {ptr : Nat}
    (owned : mgr.Owns strMqSvr ptr) (env : Env) (strMsg : Text) :
    (mgr.sendThrough env ptr strMsg).2 ≠ .useAfterFree := by
  have present := owned.producerAt
  unfold sendThrough
  split
  next absent => simp [absent] at present
  next => split <;> simp

theorem mem_cache_of_findProcucer {mgr : MqMgr} {strUrl : Text} {pPro : Nat}
    (cached : mgr.findProcucer strUrl = some pPro) : (strUrl, pPro) ∈ mgr.mapProcucer :=
  List.mem_of_find?_eq_some (find?_of_lookup cached)

theorem addProducer_cached {mgr next : MqMgr} {env : Env} {strUrl : Text} {pPro : Nat}
    (added : mgr.addProducer env strUrl = (next, .pointer (some pPro))) :
    (strUrl, pPro) ∈ next.mapProcucer := by
  unfold addProducer at added
  cases parsed : parseMqUri strUrl with
  | fail => simp [parsed] at added
  | outOfRange => simp [parsed] at added
  | ok strMqSvr strDst nMode =>
      simp only [parsed] at added
      cases cached : mgr.findProcucer strUrl with
      | some _ =>
          simp only [cached, Prod.mk.injEq, Returned.pointer.injEq, Option.some.injEq] at added
          obtain ⟨rfl, rfl⟩ := added
          exact mem_cache_of_findProcucer cached
      | none =>
          simp only [cached, Prod.mk.injEq, Returned.pointer.injEq] at added
          rcases mgr.addNewProducer_cases env strUrl strMqSvr strDst nMode with
            ⟨_, null⟩ | ⟨base, conn, _, _, result⟩
          · simp [null] at added
          · rw [result] at added
            obtain ⟨rfl, same⟩ := added
            rw [← Option.some.inj same]
            exact List.mem_append_right _ (List.mem_singleton.mpr rfl)

theorem addProducer_not_freed (mgr : MqMgr) (env : Env) (strUrl : Text) :
    (mgr.addProducer env strUrl).2 ≠ .useAfterFree := by
  unfold addProducer
  split
  · simp
  · simp
  · split <;> simp

theorem WellFormed.cacheSafe {mgr : MqMgr} (wellFormed : mgr.WellFormed)
    (coherent : mgr.Coherent) : mgr.CacheSafe := by
  refine ⟨coherent, fun env strUrl strMsg => ?_⟩
  unfold sendMsg
  split
  next pPro cached =>
    obtain ⟨_, _, _, _, _, owned⟩ := coherent _ (mem_cache_of_findProcucer cached)
    exact sendThrough_of_owned owned env strMsg
  next =>
    have nextCoherent := addProducer_coherent wellFormed coherent env strUrl
    split
    next => simp
    next next pPro added =>
      rw [added] at nextCoherent
      obtain ⟨_, _, _, _, _, owned⟩ := nextCoherent _ (addProducer_cached added)
      exact sendThrough_of_owned owned env strMsg
    next => exact mgr.addProducer_not_freed env strUrl

/-- Along every sequence of calls the cache is safe exactly as long as no deletion
hits the producer of another cached URI. -/
theorem cacheSafe_iff_deletesOwn (actions : List (Call × Env)) :
    AlongRun afterCall CacheSafe init actions ↔ StepsMeet afterCall DeletesOwn init actions := by
  have initial : init.CacheSafe :=
    init_wellFormed.cacheSafe fun entry member => by simp [init] at member
  have preserved (mgr : MqMgr) (action : Call × Env) (wellFormed : mgr.WellFormed) :
      (mgr.afterCall action).WellFormed := perform_wellFormed wellFormed action.2 action.1
  have decides (mgr : MqMgr) (action : Call × Env) (wellFormed : mgr.WellFormed)
      (safe : mgr.CacheSafe) : (mgr.afterCall action).CacheSafe ↔ mgr.DeletesOwn action := by
    rw [← perform_coherent_iff wellFormed safe.coherent action]
    exact ⟨CacheSafe.coherent, (preserved mgr action wellFormed).cacheSafe⟩
  exact alongRun_iff_stepsMeet preserved decides init_wellFormed initial actions

def allSucceeds : Env :=
  { newConnection := true, conn := true, newEndpoint := true, create := fun _ => .created,
    createBytesMessage := true, send := true }

def plainUri : Text := ['m', 'q', '/', 'h', ':', '1', '/', 'q', 'u', 'e', 'u', 'e', '/', 'q']

def slashedUri : Text := '/' :: plainUri

def twoSpellings : List (Call × Env) :=
  [(.addProducer plainUri, allSucceeds), (.addProducer slashedUri, allSucceeds),
    (.delProducer slashedUri, allSucceeds)]

/-- Deleting through the second spelling frees the producer of the first one, which
stays cached; the next send through it uses the deleted object. -/
theorem twoSpellings_leaves_dangling_producer :
    ¬ AlongRun afterCall CacheSafe init twoSpellings ∧
      ((twoSpellings.foldl afterCall init).sendMsg allSucceeds plainUri []).2 = .useAfterFree := by
  have freed : ((twoSpellings.foldl afterCall init).sendMsg allSucceeds plainUri []).2 =
      .useAfterFree := by decide +kernel
  exact ⟨fun along => (along twoSpellings List.prefix_rfl).sends _ _ _ freed, freed⟩

end MqMgr

end DcCluster.Mq
