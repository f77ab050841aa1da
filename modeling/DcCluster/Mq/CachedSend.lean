import Mathlib.Data.List.Induction
import DcCluster.Mq.ProducerCache

/-!
`MqMgr_SendMsg` looks the whole URI up in the cache before anything is parsed, while
`MqMgr_AddProducer` parses first. The two agree because only a URI that parses is ever
cached, and a producer that was added is found under the same URI by the next send.
-/

namespace DcCluster.Mq.MqMgr

open DcCluster.Lib

def Parses (strUrl : Text) : Prop :=
  ∃ strMqSvr strDst nMode, parseMqUri strUrl = .ok strMqSvr strDst nMode

def CachedParse (mgr : MqMgr) : Prop := ∀ entry ∈ mgr.mapProcucer, Parses entry.1

theorem addProducer_cache {mgr : MqMgr} (env : Env) (strUrl : Text) {entry : Text × Nat}
    (member : entry ∈ (mgr.addProducer env strUrl).1.mapProcucer) :
    entry ∈ mgr.mapProcucer ∨ Parses entry.1 := by
  rcases mgr.addProducer_cases env strUrl with same | ⟨strMqSvr, strDst, nMode, parsed, _, added⟩
  · rw [same] at member
    exact .inl member
  · rw [added] at member
    rcases mgr.addNewProducer_cases env strUrl strMqSvr strDst nMode with
      ⟨extension, _⟩ | ⟨base, conn, extension, _, result⟩
    · rw [extension.cache] at member
      exact .inl member
    · rw [result] at member
      rcases List.mem_append.mp member with old | new
      · rw [extension.cache] at old
        exact .inl old
      · rw [List.mem_singleton.mp new]
        exact .inr ⟨strMqSvr, strDst, nMode, parsed⟩

/-- What a call leaves in the cache was there before, or it is the URI of the call. -/
theorem perform_cache {mgr : MqMgr} (env : Env) (call : Call) {entry : Text × Nat}
    (member : entry ∈ (mgr.perform env call).1.mapProcucer) :
    entry ∈ mgr.mapProcucer ∨ Parses entry.1 := by
  cases call with
  | addProducer strUrl => exact addProducer_cache env strUrl member
  | delProducer strUrl =>
      simp only [perform, delProducer] at member
      split at member
      · exact .inl member
      · exact .inl member
      · simp only [delFromCache, delFromConn] at member
        have cached := List.mem_of_mem_eraseP member
        split at cached
        · exact .inl cached
        · rw [keepOrDrop_cache] at cached
          exact .inl cached
  | addConsumer strUrl pfnMsgCb pUser =>
      rcases mgr.addConsumer_cases env strUrl pfnMsgCb pUser with
        extension | ⟨_, _, _, _, base, conn, extension, _, result⟩
      · have cached := extension.cache ▸ member
        exact .inl cached
      · rw [perform, result] at member
        have cached := extension.cache ▸ member
        exact .inl cached
  | delConsumer strUrl =>
      simp only [perform, delConsumer] at member
      split at member
      · exact .inl member
      · exact .inl member
      · simp only [delConsumerFromConn] at member
        split at member
        · exact .inl member
        · rw [keepOrDrop_cache] at member
          exact .inl member
  | sendMsg strUrl strMsg =>
      obtain ⟨sent, same | added⟩ := mgr.sendMsg_state env strUrl strMsg
      · rw [perform, same] at member
        exact .inl member
      · rw [perform, added] at member
        exact addProducer_cache env strUrl member
  | fini => exact absurd member List.not_mem_nil
  | doReconnWork strMqSvr =>
      simp only [perform, doReconnWork] at member
      split at member
      · exact .inl member
      · split at member
        · exact .inl member
        · exact .inl member

theorem foldl_cachedParse (actions : List (Call × Env)) :
    (actions.foldl afterCall init).CachedParse := by
  induction actions using List.reverseRecOn with
  | nil => exact fun entry member => absurd member List.not_mem_nil
  | append_singleton before action ih =>
      rw [List.foldl_append]
      intro entry member
      rcases perform_cache action.2 action.1 member with old | parses
      · exact ih entry old
      · exact parses

/-- `MqMgr_AddProducer` and then `MqMgr_SendMsg`; an exception of the first call leaves the
second one out. -/
def addThenSend (mgr : MqMgr) (env : Env) (strUrl strMsg : Text) : MqMgr × Returned :=
  match mgr.addProducer env strUrl with
  | (mgr, .outOfRange) => (mgr, .outOfRange)
  | (mgr, _) => mgr.sendMsg env strUrl strMsg

section Agree

variable {mgr : MqMgr} {env : Env} {strUrl : Text}

theorem CachedParse.uncached (parses : mgr.CachedParse) (fails : ¬ Parses strUrl) :
    mgr.findProcucer strUrl = none := by
  by_contra present
  obtain ⟨pPro, cached⟩ := Option.ne_none_iff_exists'.mp present
  exact fails (parses (strUrl, pPro) (mem_cache_of_findProcucer cached))

theorem addConnection_again {strMqSvr : Text} {base : MqMgr} {pConn : Option MqConnection}
    (connected : mgr.addConnection env strMqSvr = (base, pConn)) :
    base.addConnection env strMqSvr = (base, pConn) := by
  cases pConn with
  | some conn =>
      have found := @addConnection_found mgr env strMqSvr conn (by rw [connected])
      rw [connected] at found
      simp only [addConnection, found]
  | none =>
      have failed := connected
      unfold addConnection at failed
      split at failed
      · cases failed
      · split at failed
        · cases failed
        · obtain ⟨rfl, -⟩ := Prod.mk.inj failed
          exact connected

/-- A second attempt under the same conditions fails in the same place and finds the
connection that the first one left. -/
theorem addNewProducer_again {strMqSvr strDst : Text} {nMode : MqMsgMode} {next : MqMgr}
    (failed : mgr.addNewProducer env strUrl strMqSvr strDst nMode = (next, none)) :
    next.addNewProducer env strUrl strMqSvr strDst nMode = (next, none) := by
  obtain ⟨base, pConn, connected, -⟩ := mgr.addConnection_spec env strMqSvr
  have again := addConnection_again connected
  have isNext : base = next := by
    cases pConn with
    | none => simpa only [addNewProducer, connected, Prod.mk.injEq, and_true] using failed
    | some conn =>
        cases allocated : env.newEndpoint <;> simp [addNewProducer, connected, allocated] at failed
        exact failed
  subst next
  rw [← failed, addNewProducer, addNewProducer, connected, again]

theorem findProcucer_withProducer {strMqSvr strDst : Text} {nMode : MqMsgMode}
    {conn : MqConnection} (uncached : mgr.findProcucer strUrl = none) :
    (mgr.withProducer env strUrl strMqSvr strDst nMode conn).findProcucer strUrl =
      some mgr.nextPtr := by
  have appended := congrFun (@lookup_append_fresh _ _ _ _ Prod.fst Prod.snd mgr.mapProcucer
    (strUrl, mgr.nextPtr) uncached) strUrl
  rwa [Function.update_self] at appended

theorem addNewProducer_findProcucer {strMqSvr strDst : Text} {nMode : MqMsgMode} {next : MqMgr}
    {pPro : Option Nat} (uncached : mgr.findProcucer strUrl = none)
    (added : mgr.addNewProducer env strUrl strMqSvr strDst nMode = (next, pPro)) :
    next.findProcucer strUrl = pPro := by
  rcases mgr.addNewProducer_cases env strUrl strMqSvr strDst nMode with
    ⟨extension, null⟩ | ⟨base, conn, extension, _, result⟩
  · simp only [added] at extension null
    rw [null, findProcucer, extension.cache]
    exact uncached
  · obtain ⟨rfl, rfl⟩ := Prod.mk.inj (added.symm.trans result)
    refine findProcucer_withProducer ?_
    rw [findProcucer, extension.cache]
    exact uncached

theorem sendMsg_eq_addThenSend (parses : mgr.CachedParse) (env : Env) (strUrl strMsg : Text) :
    mgr.sendMsg env strUrl strMsg = mgr.addThenSend env strUrl strMsg := by
  cases parsed : parseMqUri strUrl with
  | fail => simp only [addThenSend, addProducer, parsed]
  | outOfRange =>
      have fails : ¬ Parses strUrl := by
        rintro ⟨strMqSvr, strDst, nMode, ok⟩
        cases parsed.symm.trans ok
      simp only [sendMsg, parses.uncached fails, addThenSend, addProducer, parsed]
  | ok strMqSvr strDst nMode =>
      cases cached : mgr.findProcucer strUrl with
      | some pPro => simp only [addThenSend, addProducer, parsed, cached]
      | none =>
          rcases added : mgr.addNewProducer env strUrl strMqSvr strDst nMode with ⟨next, pPro⟩
          have visible := addNewProducer_findProcucer cached added
          simp only [sendMsg, cached, addThenSend, addProducer, parsed, added, visible]
          cases pPro with
          | some pPro => rfl
          | none => simp only [addNewProducer_again added]

end Agree

/-- Sends to one URI, each under conditions of its own. -/
def sendAll (mgr : MqMgr) (strUrl : Text) (sends : List (Env × Text)) : MqMgr :=
  sends.foldl (fun mgr send => (mgr.sendMsg send.1 strUrl send.2).1) mgr

section Repeated

variable {mgr : MqMgr} {strUrl : Text}

theorem sendMsg_keeps_cached {pPro : Nat} (cached : mgr.findProcucer strUrl = some pPro)
    (env : Env) (strMsg : Text) :
    (mgr.sendMsg env strUrl strMsg).1.findProcucer strUrl = some pPro ∧
      (mgr.sendMsg env strUrl strMsg).1.nextPtr = mgr.nextPtr := by
  obtain ⟨sent, same⟩ := mgr.sendThrough_state env pPro strMsg
  have result : (mgr.sendMsg env strUrl strMsg).1 = { mgr with sent := sent } := by
    simp only [sendMsg, cached, same]
  rw [result]
  exact ⟨cached, rfl⟩

theorem sendAll_keeps_cached {pPro : Nat} (cached : mgr.findProcucer strUrl = some pPro)
    (sends : List (Env × Text)) : (mgr.sendAll strUrl sends).nextPtr = mgr.nextPtr := by
  induction sends generalizing mgr with
  | nil => rfl
  | cons send rest ih =>
      obtain ⟨stays, samePtr⟩ := sendMsg_keeps_cached cached send.1 send.2
      exact (ih stays).trans samePtr

theorem addProducer_creates (mgr : MqMgr) (env : Env) (strUrl : Text) :
    (mgr.addProducer env strUrl).1.nextPtr = mgr.nextPtr ∨
      (mgr.addProducer env strUrl).1.nextPtr = mgr.nextPtr + 1 ∧
        ∃ pPro, (mgr.addProducer env strUrl).1.findProcucer strUrl = some pPro := by
  rcases mgr.addProducer_cases env strUrl with same | ⟨strMqSvr, strDst, nMode, _, uncached, added⟩
  · rw [same]
    exact .inl rfl
  · rw [added]
    rcases mgr.addNewProducer_cases env strUrl strMqSvr strDst nMode with
      ⟨extension, _⟩ | ⟨base, conn, extension, _, result⟩
    · exact .inl extension.nextPtr
    · have visible := addNewProducer_findProcucer uncached result
      rw [result]
      refine .inr ⟨?_, base.nextPtr, visible⟩
      rw [← extension.nextPtr]
      rfl

theorem sendAll_creates_one (mgr : MqMgr) (strUrl : Text) (sends : List (Env × Text)) :
    (mgr.sendAll strUrl sends).nextPtr ≤ mgr.nextPtr + 1 := by
  induction sends generalizing mgr with
  | nil => exact Nat.le_succ _
  | cons send rest ih =>
      obtain ⟨sent, same | added⟩ := mgr.sendMsg_state send.1 strUrl send.2
      · have later := ih (mgr.sendMsg send.1 strUrl send.2).1
        rw [same] at later
        rw [sendAll, List.foldl_cons, same]
        exact later
      · rw [sendAll, List.foldl_cons, added]
        rcases mgr.addProducer_creates send.1 strUrl with samePtr | ⟨created, pPro, cached⟩
        · have later := ih { (mgr.addProducer send.1 strUrl).1 with sent := sent }
          rw [← samePtr]
          exact later
        · have later := @sendAll_keeps_cached
            { (mgr.addProducer send.1 strUrl).1 with sent := sent } strUrl pPro cached rest
          rw [sendAll] at later
          rw [later, created]

end Repeated

/-- After any calls, for any URI and message and however the calls outside end: a send gives
the result and the state of `MqMgr_AddProducer` followed by the send, and any number of sends
to the URI creates at most one producer. -/
theorem sendMsg_agrees_with_addProducer (actions : List (Call × Env)) (strUrl : Text) :
    let mgr := actions.foldl afterCall init
    (∀ env strMsg, mgr.sendMsg env strUrl strMsg = mgr.addThenSend env strUrl strMsg) ∧
      ∀ sends : List (Env × Text), (mgr.sendAll strUrl sends).nextPtr ≤ mgr.nextPtr + 1 := by
  intro mgr
  constructor
  · intro env strMsg
    exact sendMsg_eq_addThenSend (foldl_cachedParse actions) env strUrl strMsg
  · intro sends
    exact mgr.sendAll_creates_one strUrl sends

end DcCluster.Mq.MqMgr
