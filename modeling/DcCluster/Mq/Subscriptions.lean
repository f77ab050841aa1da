import DcCluster.Lib.History
import DcCluster.Mq.Registrations

/-!
Who gets the messages of a destination. The two-level table of the MQ registry, a
connection for a server and a list of consumers on it, is a partial map from places
to callbacks, whatever allocations fail and however often a connection is dropped
and rebuilt. Read as a history: the callback at a place is the one of the first
accepted `MqMgr_AddConsumer` since the place was last freed.
-/

namespace DcCluster.Mq

open DcCluster.Lib

/-- What a URI names. -/
structure Place where
  strMqSvr : Text
  strDst : Text
  nMode : MqMsgMode
  deriving DecidableEq, Repr

def placeOf (strUrl : Text) : Option Place :=
  match parseMqUri strUrl with
  | .ok strMqSvr strDst nMode => some ⟨strMqSvr, strDst, nMode⟩
  | _ => none

theorem placeOf_eq_some {strUrl : Text} {place : Place} :
    placeOf strUrl = some place ↔
      parseMqUri strUrl = .ok place.strMqSvr place.strDst place.nMode := by
  unfold placeOf
  cases parseMqUri strUrl with
  | ok strMqSvr strDst nMode =>
      constructor
      · intro same
        cases same
        rfl
      · intro same
        cases same
        rfl
  | _ => simp

abbrev Handler := Nat × Nat

abbrev Subscriptions := Place → Option Handler

namespace Subscriptions

/-- What a call does to the map, told from its arguments and its result. -/
def apply (table : Subscriptions) (returned : Returned) : Call → Subscriptions
  | .addConsumer strUrl (some pfnMsgCb) pUser =>
      if returned = .code 0 then
        (placeOf strUrl).elim table fun place =>
          Function.update table place ((table place).or (some (pfnMsgCb, pUser)))
      else table
  | .delConsumer strUrl =>
      (placeOf strUrl).elim table fun place => Function.update table place none
  | .fini => fun _ => none
  | _ => table

end Subscriptions

abbrev ConsumerEntry := (Text × MqMsgMode) × Handler

structure Callback where
  pfnMsgCb : Nat
  pMsg : List UInt8
  uMsgLen : Nat
  pUser : Nat
  deriving DecidableEq, Repr

def Handler.callback (handler : Handler) (pMsg : List UInt8) : Callback :=
  { pfnMsgCb := handler.1, pMsg := pMsg, uMsgLen := pMsg.length % 4294967296, pUser := handler.2 }

namespace MqConsumer

def entry (consumer : MqConsumer) : ConsumerEntry :=
  ((consumer.strName, consumer.nMode), (consumer.pMsgCb, consumer.pUser))

/-- `none` is a message that is no `BytesMessage`, or one whose body cannot be read. -/
def onMessage (consumer : MqConsumer) (message : Option (List UInt8)) : Option Callback :=
  message.map (Handler.callback (consumer.pMsgCb, consumer.pUser))

end MqConsumer

namespace MqConnection

def entries (conn : MqConnection) : List ConsumerEntry := conn.listConsumer.map MqConsumer.entry

theorem entries_addConsumer (conn : MqConnection) (env : Env) (ptr : Nat) (strName : Text)
    (nMode : MqMsgMode) (pMsgCb pUser : Nat) :
    (conn.addConsumer env ptr strName nMode pMsgCb pUser).entries =
      conn.entries ++ [((strName, nMode), (pMsgCb, pUser))] := by
  simp [entries, addConsumer, MqConsumer.entry, MqEndpoint.new]

theorem entries_delConsumer (conn : MqConnection) (strName : Text) (nMode : MqMsgMode) :
    (conn.delConsumer strName nMode).entries =
      conn.entries.eraseP fun entry => entry.1 = (strName, nMode) := by
  unfold entries delConsumer
  rw [List.eraseP_map]
  congr 1
  refine congrFun (congrArg List.eraseP (funext fun consumer => ?_)) _
  simp [MqEndpoint.named, MqConsumer.entry]

theorem entries_mapEndpoints (conn : MqConnection) {change : MqEndpoint → MqEndpoint}
    (sameName : ∀ endpoint, (change endpoint).strName = endpoint.strName)
    (sameMode : ∀ endpoint, (change endpoint).nMode = endpoint.nMode) :
    (conn.mapEndpoints change).entries = conn.entries := by
  simp [entries, mapEndpoints, MqConsumer.entry, Function.comp_def, sameName, sameMode]

theorem hasConsumer_iff {conn : MqConnection} {strName : Text} {nMode : MqMsgMode} :
    conn.hasConsumer strName nMode = true ↔ (strName, nMode) ∈ conn.entries.map Prod.fst := by
  simp only [hasConsumer, List.any_eq_true, MqEndpoint.named, entries, List.map_map, List.mem_map,
    Function.comp_apply, MqConsumer.entry, Bool.and_eq_true, decide_eq_true_eq, Prod.mk.injEq]

theorem entries_of_isEmptyConn {conn : MqConnection} (empty : conn.isEmptyConn = true) :
    conn.entries = [] := by
  simp only [isEmptyConn, Bool.and_eq_true, List.isEmpty_iff] at empty
  simp [entries, empty.1]

end MqConnection

namespace MqMgr

/-- The consumers of a server, in the order of the list of its connection. -/
def entries (mgr : MqMgr) (strMqSvr : Text) : List ConsumerEntry :=
  (mgr.findConn strMqSvr).elim [] MqConnection.entries

def subscriptions (mgr : MqMgr) : Subscriptions := fun place =>
  lookup Prod.fst Prod.snd (mgr.entries place.strMqSvr) (place.strDst, place.nMode)

/-- What happens when every consumer object of a place is given a message. -/
def onMessage (mgr : MqMgr) (place : Place) (message : Option (List UInt8)) : List Callback :=
  (mgr.findConn place.strMqSvr).elim [] fun conn =>
    (conn.listConsumer.filter fun consumer =>
      consumer.toMqEndpoint.named place.strDst place.nMode).filterMap (·.onMessage message)

/-- No two consumers of a server share a destination and a mode. -/
def Distinct (mgr : MqMgr) : Prop := ∀ strMqSvr, ((mgr.entries strMqSvr).map Prod.fst).Nodup

section Entries

variable {mgr next : MqMgr} {strMqSvr : Text} {conn : MqConnection}

theorem entries_update {found : Option MqConnection}
    (stored : next.findConn = Function.update mgr.findConn strMqSvr found) :
    next.entries = Function.update mgr.entries strMqSvr (found.elim [] MqConnection.entries) := by
  funext other
  rw [entries, stored]
  by_cases same : other = strMqSvr
  · subst other
    rw [Function.update_self, Function.update_self]
  · rw [Function.update_of_ne same, Function.update_of_ne same, entries]

theorem entries_kept {old : MqConnection} (found : mgr.findConn strMqSvr = some old)
    (same : conn.entries = old.entries) : Function.update mgr.entries strMqSvr conn.entries = mgr.entries := by
  rw [Function.update_eq_self_iff, same, entries, found]
  rfl

theorem entries_setConn {old : MqConnection} (found : mgr.findConn strMqSvr = some old)
    (conn : MqConnection) :
    (mgr.setConn strMqSvr conn).entries = Function.update mgr.entries strMqSvr conn.entries :=
  entries_update (findConn_setConn conn found)

theorem entries_keepOrDrop (wellFormed : mgr.WellFormed) {old : MqConnection}
    (found : mgr.findConn strMqSvr = some old) (conn : MqConnection) (gone : List Nat) :
    (mgr.keepOrDrop strMqSvr conn gone).entries =
      Function.update mgr.entries strMqSvr conn.entries := by
  unfold keepOrDrop
  split
  next empty =>
    rw [MqConnection.entries_of_isEmptyConn empty]
    exact entries_update (findConn_eraseConn wellFormed strMqSvr)
  next => exact entries_setConn found conn

theorem entries_addConnection (mgr : MqMgr) (env : Env) (strMqSvr : Text) :
    (mgr.addConnection env strMqSvr).1.entries = mgr.entries := by
  unfold addConnection
  cases found : mgr.findConn strMqSvr with
  | some conn => rfl
  | none =>
      simp only
      split
      next =>
        have unchanged : Function.update mgr.entries strMqSvr [] = mgr.entries := by
          rw [Function.update_eq_self_iff, entries, found]
          rfl
        have stored := findConn_append found
          { pSession := if env.conn then some mgr.nextSession else none,
            listProducer := [], listConsumer := [] }
        exact Eq.trans (entries_update stored) unchanged
      next => rfl

theorem entries_addProducer (mgr : MqMgr) (env : Env) (strUrl : Text) :
    (mgr.addProducer env strUrl).1.entries = mgr.entries := by
  rcases mgr.addProducer_cases env strUrl with same | ⟨strMqSvr, strDst, nMode, _, _, added⟩
  · rw [same]
  · have connected := mgr.entries_addConnection env strMqSvr
    have located := @addConnection_found mgr env strMqSvr
    rw [added]
    simp only [addNewProducer]
    generalize mgr.addConnection env strMqSvr = result at connected located
    obtain ⟨base, pConn⟩ := result
    cases pConn with
    | none => exact connected
    | some conn =>
        simp only
        split
        next =>
          have found : base.findConn strMqSvr = some conn := located rfl
          refine Eq.trans (entries_setConn found _) (Eq.trans ?_ connected)
          exact entries_kept found rfl
        next => exact connected

theorem entries_delProducer (wellFormed : mgr.WellFormed) (strUrl : Text) :
    (mgr.delProducer strUrl).1.entries = mgr.entries := by
  unfold delProducer
  cases parseMqUri strUrl with
  | fail => rfl
  | outOfRange => rfl
  | ok strMqSvr strDst nMode =>
      simp only [delFromConn]
      cases found : mgr.findConn strMqSvr with
      | none => rfl
      | some conn =>
          have sameEntries : (conn.delProducer strDst nMode).entries = conn.entries := rfl
          have kept := entries_keepOrDrop wellFormed found (conn.delProducer strDst nMode)
            ((conn.firstProducer strDst nMode).map (·.ptr)).toList
          rw [entries_kept found sameEntries] at kept
          exact kept

theorem entries_sendMsg (mgr : MqMgr) (env : Env) (strUrl strMsg : Text) :
    (mgr.sendMsg env strUrl strMsg).1.entries = mgr.entries := by
  obtain ⟨sent, same | added⟩ := mgr.sendMsg_state env strUrl strMsg
  · rw [same]
    rfl
  · rw [added]
    exact mgr.entries_addProducer env strUrl

theorem entries_doReconnWork (mgr : MqMgr) (env : Env) (strMqSvr : Text) :
    (mgr.doReconnWork env strMqSvr).entries = mgr.entries := by
  unfold doReconnWork
  cases found : mgr.findConn strMqSvr with
  | none => rfl
  | some conn =>
      have destroyed : conn.destroyConn.entries = conn.entries := by
        have mapped := @MqConnection.entries_mapEndpoints conn MqEndpoint.destroy
        exact mapped (fun _ => rfl) fun _ => rfl
      simp only
      split
      next =>
        have rebuilt : (conn.destroyConn.reBuildConn env mgr.nextSession).entries =
            conn.entries := by
          have mapped := @MqConnection.entries_mapEndpoints conn.destroyConn
            fun endpoint => endpoint.create (env.create endpoint.ptr) (some mgr.nextSession)
          exact (mapped (by simp) (by simp)).trans destroyed
        exact (entries_setConn found _).trans (entries_kept found rebuilt)
      next => exact (entries_setConn found _).trans (entries_kept found destroyed)

theorem entries_delConsumerFromConn (wellFormed : mgr.WellFormed) (strMqSvr strDst : Text)
    (nMode : MqMsgMode) :
    (mgr.delConsumerFromConn strMqSvr strDst nMode).entries =
      Function.update mgr.entries strMqSvr
        ((mgr.entries strMqSvr).eraseP fun entry => entry.1 = (strDst, nMode)) := by
  unfold delConsumerFromConn
  cases found : mgr.findConn strMqSvr with
  | none =>
      have empty : mgr.entries strMqSvr = [] := by rw [entries, found]; rfl
      rw [empty]
      exact (Function.update_eq_self_iff.mpr empty.symm).symm
  | some conn =>
      have here : mgr.entries strMqSvr = conn.entries := by rw [entries, found]; rfl
      rw [here, ← conn.entries_delConsumer]
      exact entries_keepOrDrop wellFormed found _ _

theorem hasConsumer_iff (mgr : MqMgr) (place : Place) :
    mgr.hasConsumer place.strMqSvr place.strDst place.nMode = true ↔
      mgr.subscriptions place ≠ none := by
  rw [subscriptions, ne_eq, lookup_eq_none_iff, not_not, entries, hasConsumer]
  cases mgr.findConn place.strMqSvr with
  | none => simp
  | some conn => exact MqConnection.hasConsumer_iff

/-- A consumer is added at the end of the list of its server, or nothing is. -/
theorem addNewConsumer_entries (mgr : MqMgr) (env : Env) (strMqSvr strDst : Text)
    (nMode : MqMsgMode) (pfnMsgCb pUser : Nat) :
    (mgr.addNewConsumer env strMqSvr strDst nMode pfnMsgCb pUser).2 = .code (-1) ∧
        (mgr.addNewConsumer env strMqSvr strDst nMode pfnMsgCb pUser).1.entries = mgr.entries ∨
      (mgr.addNewConsumer env strMqSvr strDst nMode pfnMsgCb pUser).2 = .code 0 ∧
        (mgr.addNewConsumer env strMqSvr strDst nMode pfnMsgCb pUser).1.entries =
          Function.update mgr.entries strMqSvr
            (mgr.entries strMqSvr ++ [((strDst, nMode), (pfnMsgCb, pUser))]) := by
  have connected := mgr.entries_addConnection env strMqSvr
  have located := @addConnection_found mgr env strMqSvr
  unfold addNewConsumer
  generalize mgr.addConnection env strMqSvr = result at connected located
  obtain ⟨base, pConn⟩ := result
  cases pConn with
  | none => exact .inl ⟨rfl, connected⟩
  | some conn =>
      simp only
      split
      next =>
        have found : base.findConn strMqSvr = some conn := located rfl
        have here : mgr.entries strMqSvr = conn.entries := by
          rw [← connected, entries, found]
          rfl
        refine .inr ⟨rfl, ?_⟩
        rw [here, ← MqConnection.entries_addConsumer conn env base.nextPtr, ← connected]
        exact entries_setConn found _
      next => exact .inl ⟨rfl, connected⟩

theorem addConsumer_entries (mgr : MqMgr) (env : Env) (strUrl : Text) (pfnMsgCb pUser : Nat) :
    (mgr.addConsumer env strUrl (some pfnMsgCb) pUser).2 ≠ .code 0 ∧
        (mgr.addConsumer env strUrl (some pfnMsgCb) pUser).1.entries = mgr.entries ∨
      ∃ place, placeOf strUrl = some place ∧
        (mgr.addConsumer env strUrl (some pfnMsgCb) pUser).2 = .code 0 ∧
        ((mgr.subscriptions place ≠ none ∧
            (mgr.addConsumer env strUrl (some pfnMsgCb) pUser).1.entries = mgr.entries) ∨
          (mgr.subscriptions place = none ∧
            (mgr.addConsumer env strUrl (some pfnMsgCb) pUser).1.entries =
              Function.update mgr.entries place.strMqSvr (mgr.entries place.strMqSvr ++
                [((place.strDst, place.nMode), (pfnMsgCb, pUser))]))) := by
  cases parsed : parseMqUri strUrl with
  | fail =>
      left
      simp [addConsumer, parsed]
  | outOfRange =>
      left
      simp [addConsumer, parsed]
  | ok strMqSvr strDst nMode =>
      let place : Place := ⟨strMqSvr, strDst, nMode⟩
      have named : placeOf strUrl = some place := placeOf_eq_some.mpr parsed
      have occupied := mgr.hasConsumer_iff place
      simp only [addConsumer, parsed]
      split
      next present => exact .inr ⟨place, named, rfl, .inl ⟨occupied.mp present, rfl⟩⟩
      next absent =>
        have free : mgr.subscriptions place = none := not_not.mp (mt occupied.mpr absent)
        rcases mgr.addNewConsumer_entries env strMqSvr strDst nMode pfnMsgCb pUser with
          ⟨failed, same⟩ | ⟨succeeded, grown⟩
        · left
          rw [failed]
          exact ⟨by simp, same⟩
        · exact .inr ⟨place, named, succeeded, .inr ⟨free, grown⟩⟩

end Entries

section Step

variable {mgr next : MqMgr} {place : Place}

theorem subscriptions_congr (same : next.entries = mgr.entries) :
    next.subscriptions = mgr.subscriptions := by
  funext other
  rw [subscriptions, subscriptions, same]

/-- One key changes on one server, so one place changes. -/
theorem subscriptions_update {listed : List ConsumerEntry} {handler : Option Handler}
    (changed : next.entries = Function.update mgr.entries place.strMqSvr listed)
    (found : lookup Prod.fst Prod.snd listed =
      Function.update (lookup Prod.fst Prod.snd (mgr.entries place.strMqSvr))
        (place.strDst, place.nMode) handler) :
    next.subscriptions = Function.update mgr.subscriptions place handler := by
  funext other
  rw [subscriptions, changed]
  by_cases sameSvr : other.strMqSvr = place.strMqSvr
  · rw [sameSvr, Function.update_self, found]
    by_cases sameKey : (other.strDst, other.nMode) = (place.strDst, place.nMode)
    · have same : other = place := by
        cases other
        cases place
        simp_all
      rw [same, Function.update_self, Function.update_self]
    · have differs : other ≠ place := by
        rintro rfl
        exact sameKey rfl
      rw [Function.update_of_ne sameKey, Function.update_of_ne differs, subscriptions, sameSvr]
  · have differs : other ≠ place := by
      rintro rfl
      exact sameSvr rfl
    rw [Function.update_of_ne sameSvr, Function.update_of_ne differs, subscriptions]

theorem subscriptions_addConsumer (mgr : MqMgr) (env : Env) (strUrl : Text)
    (pfnMsgCb pUser : Nat) :
    (mgr.addConsumer env strUrl (some pfnMsgCb) pUser).1.subscriptions =
      mgr.subscriptions.apply (mgr.addConsumer env strUrl (some pfnMsgCb) pUser).2
        (.addConsumer strUrl (some pfnMsgCb) pUser) := by
  rcases mgr.addConsumer_entries env strUrl pfnMsgCb pUser with
    ⟨refused, same⟩ | ⟨place, named, accepted, ⟨present, same⟩ | ⟨free, grown⟩⟩
  · rw [subscriptions_congr same, Subscriptions.apply, if_neg refused]
  · obtain ⟨handler, found⟩ := Option.ne_none_iff_exists'.mp present
    rw [subscriptions_congr same, Subscriptions.apply, if_pos accepted, named, Option.elim_some,
      found, Option.some_or, ← found, Function.update_eq_self]
  · rw [Subscriptions.apply, if_pos accepted, named, Option.elim_some, free, Option.none_or]
    refine subscriptions_update grown ?_
    exact @lookup_append_fresh _ _ _ _ Prod.fst Prod.snd (mgr.entries place.strMqSvr)
      ((place.strDst, place.nMode), (pfnMsgCb, pUser)) free

theorem subscriptions_delConsumer (wellFormed : mgr.WellFormed) (distinct : mgr.Distinct)
    (strUrl : Text) (returned : Returned) :
    (mgr.delConsumer strUrl).1.subscriptions =
      mgr.subscriptions.apply returned (.delConsumer strUrl) := by
  cases parsed : parseMqUri strUrl with
  | fail => simp [delConsumer, Subscriptions.apply, placeOf, parsed]
  | outOfRange => simp [delConsumer, Subscriptions.apply, placeOf, parsed]
  | ok strMqSvr strDst nMode =>
      let place : Place := ⟨strMqSvr, strDst, nMode⟩
      have named : placeOf strUrl = some place := placeOf_eq_some.mpr parsed
      simp only [delConsumer, parsed, Subscriptions.apply, named, Option.elim_some]
      exact @subscriptions_update mgr _ place _ _
        (entries_delConsumerFromConn wellFormed strMqSvr strDst nMode)
        (lookup_eraseP (distinct strMqSvr) (strDst, nMode))

/-- A call does to the subscriptions what its result says. -/
theorem subscriptions_perform (wellFormed : mgr.WellFormed) (distinct : mgr.Distinct) (env : Env)
    (call : Call) :
    (mgr.perform env call).1.subscriptions =
      mgr.subscriptions.apply (mgr.perform env call).2 call := by
  cases call with
  | addProducer strUrl => exact subscriptions_congr (mgr.entries_addProducer env strUrl)
  | delProducer strUrl => exact subscriptions_congr (entries_delProducer wellFormed strUrl)
  | addConsumer strUrl pfnMsgCb pUser =>
      cases pfnMsgCb with
      | none => rfl
      | some pfnMsgCb => exact mgr.subscriptions_addConsumer env strUrl pfnMsgCb pUser
  | delConsumer strUrl => exact subscriptions_delConsumer wellFormed distinct strUrl _
  | sendMsg strUrl strMsg => exact subscriptions_congr (mgr.entries_sendMsg env strUrl strMsg)
  | fini => rfl
  | doReconnWork strMqSvr => exact subscriptions_congr (mgr.entries_doReconnWork env strMqSvr)

theorem distinct_of_update {listed : List ConsumerEntry} {strMqSvr : Text}
    (distinct : mgr.Distinct)
    (changed : next.entries = Function.update mgr.entries strMqSvr listed)
    (alone : (listed.map Prod.fst).Nodup) : next.Distinct := by
  intro other
  rw [changed]
  by_cases same : other = strMqSvr
  · subst other
    rwa [Function.update_self]
  · rw [Function.update_of_ne same]
    exact distinct other

theorem distinct_of_same (distinct : mgr.Distinct) (same : next.entries = mgr.entries) :
    next.Distinct := by
  intro other
  rw [same]
  exact distinct other

theorem distinct_perform (wellFormed : mgr.WellFormed) (distinct : mgr.Distinct) (env : Env)
    (call : Call) : (mgr.perform env call).1.Distinct := by
  cases call with
  | addProducer strUrl => exact distinct_of_same distinct (mgr.entries_addProducer env strUrl)
  | delProducer strUrl => exact distinct_of_same distinct (entries_delProducer wellFormed strUrl)
  | addConsumer strUrl pfnMsgCb pUser =>
      cases pfnMsgCb with
      | none => exact distinct
      | some pfnMsgCb =>
          rcases mgr.addConsumer_entries env strUrl pfnMsgCb pUser with
            ⟨_, same⟩ | ⟨place, _, _, ⟨_, same⟩ | ⟨free, grown⟩⟩
          · exact distinct_of_same distinct same
          · exact distinct_of_same distinct same
          · refine distinct_of_update distinct grown ?_
            exact nodup_append_fresh (distinct _) (lookup_eq_none_iff.mp free)
  | delConsumer strUrl =>
      simp only [perform, delConsumer]
      cases parseMqUri strUrl with
      | fail => exact distinct
      | outOfRange => exact distinct
      | ok strMqSvr strDst nMode =>
          refine distinct_of_update distinct
            (entries_delConsumerFromConn wellFormed strMqSvr strDst nMode) ?_
          exact (List.eraseP_sublist.map _).nodup (distinct strMqSvr)
  | sendMsg strUrl strMsg => exact distinct_of_same distinct (mgr.entries_sendMsg env strUrl strMsg)
  | fini =>
      intro other
      exact List.nodup_nil
  | doReconnWork strMqSvr =>
      exact distinct_of_same distinct (mgr.entries_doReconnWork env strMqSvr)

theorem onMessage_eq (distinct : mgr.Distinct) (place : Place) (pMsg : List UInt8) :
    mgr.onMessage place (some pMsg) =
      ((mgr.subscriptions place).map (Handler.callback · pMsg)).toList := by
  have alone := distinct place.strMqSvr
  rw [onMessage, subscriptions]
  unfold entries at alone ⊢
  cases found : mgr.findConn place.strMqSvr with
  | none => rfl
  | some conn =>
      rw [found] at alone
      have keyed := @filter_key_eq_lookup _ _ _ _ Prod.fst Prod.snd conn.entries alone
        (place.strDst, place.nMode)
      simp only [Option.elim_some]
      rw [Option.toList_map, ← keyed, MqConnection.entries, List.filter_map, List.map_map,
        List.map_map]
      simp only [MqConsumer.onMessage, Option.map_some, List.filterMap_eq_map']
      congr 1
      refine List.filter_congr fun consumer _ => ?_
      simp [MqEndpoint.named, MqConsumer.entry]

end Step

section History

/-- A `MqMgr_AddConsumer` for the place with this handler, and it returns 0. -/
def acceptsHandler (place : Place) (handler : Handler) (before : List (Call × Env))
    (action : Call × Env) : Prop :=
  ∃ strUrl, action.1 = .addConsumer strUrl (some handler.1) handler.2 ∧
    placeOf strUrl = some place ∧
    ((before.foldl afterCall init).perform action.2 action.1).2 = .code 0

def accepts (place : Place) (before : List (Call × Env)) (action : Call × Env) : Prop :=
  ∃ handler, acceptsHandler place handler before action

/-- A `MqMgr_DelConsumer` for the place, whichever URI names it, or `MqMgr_Fini`. -/
def frees (place : Place) (_ : List (Call × Env)) (action : Call × Env) : Prop :=
  action.1 = .fini ∨ ∃ strUrl, action.1 = .delConsumer strUrl ∧ placeOf strUrl = some place

def Taken (place : Place) (history : List (Call × Env)) : Prop :=
  Since (accepts place) (frees place) history

/-- The first accepted call for a place that is free. Later ones return 0 as well. -/
def subscribes (place : Place) (handler : Handler) (before : List (Call × Env))
    (action : Call × Env) : Prop :=
  acceptsHandler place handler before action ∧ ¬ Taken place before

theorem distinct_run (actions : List (Call × Env)) : (actions.foldl afterCall init).Distinct := by
  induction actions using List.reverseRecOn with
  | nil =>
      intro strMqSvr
      exact List.nodup_nil
  | append_singleton before action ih =>
      rw [List.foldl_append]
      exact distinct_perform (foldl_wellFormed before) ih action.2 action.1

variable {place : Place} {before : List (Call × Env)} {action : Call × Env}

theorem subscriptions_run (before : List (Call × Env)) (action : Call × Env) :
    ((before ++ [action]).foldl afterCall init).subscriptions =
      (before.foldl afterCall init).subscriptions.apply
        ((before.foldl afterCall init).perform action.2 action.1).2 action.1 := by
  rw [List.foldl_append]
  exact subscriptions_perform (foldl_wellFormed before) (distinct_run before) action.2 action.1

theorem not_accepts_of_frees (freed : frees place before action) :
    ¬ accepts place before action := by
  rintro ⟨handler, strUrl, isAdd, _⟩
  rcases freed with isFini | ⟨other, isDel, _⟩
  · rw [isAdd] at isFini
    cases isFini
  · rw [isAdd] at isDel
    cases isDel

theorem subscriptions_of_frees (freed : frees place before action) :
    ((before ++ [action]).foldl afterCall init).subscriptions place = none := by
  rw [subscriptions_run]
  rcases freed with isFini | ⟨strUrl, isDel, named⟩
  · rw [isFini]
    rfl
  · rw [isDel, Subscriptions.apply, named]
    exact Function.update_self ..

theorem subscriptions_of_accepts {handler : Handler}
    (accepted : acceptsHandler place handler before action) :
    ((before ++ [action]).foldl afterCall init).subscriptions place =
      ((before.foldl afterCall init).subscriptions place).or (some handler) := by
  obtain ⟨strUrl, isAdd, named, returned⟩ := accepted
  rw [subscriptions_run, returned, isAdd, Subscriptions.apply, if_pos rfl, named]
  exact Function.update_self ..

theorem subscriptions_of_other (kept : ¬ frees place before action)
    (unaccepted : ¬ accepts place before action) :
    ((before ++ [action]).foldl afterCall init).subscriptions place =
      (before.foldl afterCall init).subscriptions place := by
  rw [subscriptions_run]
  obtain ⟨call, env⟩ := action
  cases call with
  | addConsumer strUrl pfnMsgCb pUser =>
      cases pfnMsgCb with
      | none => rfl
      | some pfnMsgCb =>
          rw [Subscriptions.apply]
          split
          next returned =>
            cases named : placeOf strUrl with
            | none => rfl
            | some other =>
                have differs : place ≠ other := by
                  rintro rfl
                  exact unaccepted ⟨(pfnMsgCb, pUser), strUrl, rfl, named, returned⟩
                exact Function.update_of_ne differs ..
          next => rfl
  | delConsumer strUrl =>
      rw [Subscriptions.apply]
      cases named : placeOf strUrl with
      | none => rfl
      | some other =>
          have differs : place ≠ other := by
            rintro rfl
            exact kept (.inr ⟨strUrl, rfl, named⟩)
          exact Function.update_of_ne differs ..
  | fini => exact absurd (.inl rfl) kept
  | _ => rfl

theorem taken_iff (history : List (Call × Env)) :
    Taken place history ↔ (history.foldl afterCall init).subscriptions place ≠ none := by
  induction history using List.reverseRecOn with
  | nil => exact iff_of_false not_since_nil (by simp [init, subscriptions, entries, findConn])
  | append_singleton before action ih =>
      rw [Taken, since_append_singleton, ← Taken, ih]
      by_cases freed : frees place before action
      · have unaccepted := not_accepts_of_frees freed
        rw [subscriptions_of_frees freed]
        simp [unaccepted, freed]
      · by_cases accepted : accepts place before action
        · obtain ⟨handler, isHandler⟩ := accepted
          rw [subscriptions_of_accepts isHandler]
          simp [show accepts place before action from ⟨handler, isHandler⟩]
        · rw [subscriptions_of_other freed accepted]
          simp [freed, accepted]

theorem subscribed_iff_since (history : List (Call × Env)) (handler : Handler) :
    (history.foldl afterCall init).subscriptions place = some handler ↔
      Since (subscribes place handler) (frees place) history := by
  induction history using List.reverseRecOn with
  | nil => exact iff_of_false (by simp [init, subscriptions, entries, findConn]) not_since_nil
  | append_singleton before action ih =>
      rw [since_append_singleton, ← ih, subscribes, taken_iff]
      by_cases freed : frees place before action
      · have unaccepted : ¬ acceptsHandler place handler before action := fun isHandler =>
          not_accepts_of_frees freed ⟨handler, isHandler⟩
        rw [subscriptions_of_frees freed]
        simp [unaccepted, freed]
      · by_cases accepted : accepts place before action
        · obtain ⟨first, isFirst⟩ := accepted
          have same : acceptsHandler place handler before action ↔ handler = first := by
            constructor
            · rintro ⟨strUrl, isAdd, _⟩
              obtain ⟨other, isOther, _⟩ := isFirst
              rw [isAdd] at isOther
              obtain ⟨_, sameCb, sameUser⟩ := Call.addConsumer.inj isOther
              exact Prod.ext (Option.some.inj sameCb) sameUser
            · rintro rfl
              exact isFirst
          rw [subscriptions_of_accepts isFirst, same]
          cases (before.foldl afterCall init).subscriptions place with
          | none => simp [freed, eq_comm]
          | some old => simp [freed]
        · have unaccepted : ¬ acceptsHandler place handler before action := fun isHandler =>
            accepted ⟨handler, isHandler⟩
          rw [subscriptions_of_other freed accepted]
          simp [freed, unaccepted]

/-- In every run, whatever fails: a message at a place calls at most one callback, the one of
the first accepted call for the place since it was last freed. -/
theorem delivered_iff_since (history : List (Call × Env)) (place : Place) (pMsg : List UInt8) :
    let mgr := history.foldl afterCall init
    (∀ handler : Handler, mgr.onMessage place (some pMsg) = [handler.callback pMsg] ↔
        Since (subscribes place handler) (frees place) history) ∧
      (mgr.onMessage place (some pMsg) = [] ↔ ¬ Taken place history) := by
  intro mgr
  have delivered := onMessage_eq (distinct_run history) place pMsg
  constructor
  · intro handler
    rw [← subscribed_iff_since, delivered]
    cases mgr.subscriptions place with
    | none => simp
    | some other =>
        simp only [Option.map_some, Option.toList_some, List.cons.injEq, and_true, Option.some.injEq]
        constructor
        · intro same
          injection same with sameCb _ _ sameUser
          exact Prod.ext sameCb sameUser
        · rintro rfl
          rfl
  · rw [taken_iff, delivered]
    cases mgr.subscriptions place <;> simp

example : let mgr := [(.addConsumer plainUri (some 1) 0, allSucceeds),
      (.addConsumer slashedUri (some 2) 0, allSucceeds)].foldl afterCall init
    mgr.onMessage ⟨['h', ':', '1'], ['q'], .queue⟩ (some [7]) =
      [⟨1, [7], 1, 0⟩] := by
  decide +kernel

end History

end MqMgr

end DcCluster.Mq
