import DcCluster.Lib.Transition
import DcCluster.Server.Membership

/-!
Requests of `CollectWorkProc` among the other users of the registry. A request
picks a node in one critical section, calls it without the lock, and removes it in a
second critical section when the call failed. What is removed there is the entry
with the address of the node, whoever registered it in the meantime.
-/

namespace DcCluster.Server

open DcCluster.Lib

/-- `requests` holds the node for which each request waits in `ClusterWorkProc`. -/
structure Dispatcher where
  registry : Registry
  requests : List (Option DcNode)
  deriving DecidableEq, Repr

inductive Event
  | registerWork (clientInfo : ClientInfo) (clock : Int)
  | heartBeatWork (heartBeatInfo : HeartBeatInfo) (clock : Int)
  | sweep (lCheckTime : Int)
  | collectWork
  | clusterWorkReturned (request : Nat) (bsuccess : Bool)
  deriving DecidableEq, Repr

namespace Dispatcher

def initial : Dispatcher := { registry := Registry.empty, requests := [] }

def update (state : Dispatcher) (op : Op) : Dispatcher :=
  { state with registry := (perform state.registry op).1 }

def step (state : Dispatcher) : Event → Option Dispatcher
  | .registerWork clientInfo clock => some (state.update (.registerWork clientInfo clock))
  | .heartBeatWork heartBeatInfo clock => some (state.update (.heartBeatWork heartBeatInfo clock))
  | .sweep lCheckTime => some (state.update (.sweep lCheckTime))
  | .collectWork =>
      let waiting := match (pick state.registry).2 with
        | .node node => some node
        | _ => none
      some { state.update .pick with requests := state.requests ++ [waiting] }
  | .clusterWorkReturned request bsuccess =>
      match state.requests[request]? with
      | some (some node) =>
          let answered := { state with requests := state.requests.set request none }
          some (if bsuccess then answered else answered.update (.failureRemoval node))
      | _ => none

def renews (state : Dispatcher) (key : NodeKey) : Event → Bool
  | .registerWork clientInfo clock =>
      (acceptedStamp state.registry key (.registerWork clientInfo clock)).isSome
  | .heartBeatWork heartBeatInfo clock =>
      (acceptedStamp state.registry key (.heartBeatWork heartBeatInfo clock)).isSome
  | _ => false

def renewsDuring (key : NodeKey) : Dispatcher → List Event → Bool
  | _, [] => false
  | state, event :: rest =>
      state.renews key event ||
        match state.step event with
        | some next => renewsDuring key next rest
        | none => false

/-- A request that starts after `history` picks `node`, its call returns after `between`
without success, and the failure branch leads from `pending` to `final`. -/
structure FailedRequest (history between : List Event) (node : DcNode)
    (start picked pending final : Dispatcher) : Prop where
  reached : run step initial history = some start
  picks : (pick start.registry).2 = .node node
  taken : start.step .collectWork = some picked
  meanwhile : run step picked between = some pending
  fails : pending.step (.clusterWorkReturned start.requests.length false) = some final

/-- The failure branch spares the entry of a node that was renewed while the call was
under way. -/
def SparesRenewed (history between : List Event) : Prop :=
  ∀ node start picked pending final,
    FailedRequest history between node start picked pending final →
    renewsDuring node.key picked between = true → node.key ∈ pending.registry.keys →
    node.key ∈ final.registry.keys

theorem step_registry {state next : Dispatcher} {event : Event}
    (taken : state.step event = some next) :
    next.registry = state.registry ∨ ∃ op, next.registry = (perform state.registry op).1 ∧
      ∀ key, state.renews key event = (acceptedStamp state.registry key op).isSome := by
  cases event with
  | registerWork clientInfo clock =>
      cases taken
      exact .inr ⟨_, rfl, fun _ => rfl⟩
  | heartBeatWork heartBeatInfo clock =>
      cases taken
      exact .inr ⟨_, rfl, fun _ => rfl⟩
  | sweep lCheckTime =>
      cases taken
      exact .inr ⟨_, rfl, fun _ => rfl⟩
  | collectWork =>
      cases taken
      exact .inr ⟨.pick, rfl, fun _ => rfl⟩
  | clusterWorkReturned request bsuccess =>
      simp only [step] at taken
      split at taken
      next node waiting =>
        cases taken
        cases bsuccess with
        | true => exact .inl rfl
        | false => exact .inr ⟨.failureRemoval node, rfl, fun _ => rfl⟩
      next => cases taken

theorem step_valid {state next : Dispatcher} {event : Event} (valid : state.registry.Valid)
    (taken : state.step event = some next) : next.registry.Valid := by
  rcases step_registry taken with same | ⟨op, performed, _⟩
  · rwa [same]
  · rw [performed]
    exact perform_valid valid op

theorem step_request {state next : Dispatcher} {event : Event} {request : Nat} {node : DcNode}
    (waits : state.requests[request]? = some (some node) ∨ state.requests[request]? = some none)
    (taken : state.step event = some next) :
    next.requests[request]? = some (some node) ∨ next.requests[request]? = some none := by
  cases event with
  | collectWork =>
      cases taken
      have inside : request < state.requests.length := by
        rcases waits with waits | waits <;> exact (List.getElem?_eq_some_iff.mp waits).1
      simpa only [update, List.getElem?_append_left inside] using waits
  | clusterWorkReturned other bsuccess =>
      simp only [step] at taken
      split at taken
      next =>
        have changed : next.requests = state.requests.set other none := by
          cases taken
          cases bsuccess <;> rfl
        rw [changed, List.getElem?_set]
        split
        next same =>
          subst other
          rcases waits with waits | waits <;> simp [(List.getElem?_eq_some_iff.mp waits).1]
        next => exact waits
      next => cases taken
  | _ =>
      cases taken
      exact waits

theorem run_unrenewed {state final : Dispatcher} {events : List Event} {key : NodeKey}
    {stamp : Int} (valid : state.registry.Valid)
    (observed : state.registry.table key = some stamp ∨ state.registry.table key = none)
    (unrenewed : renewsDuring key state events = false)
    (executed : run step state events = some final) :
    final.registry.table key = some stamp ∨ final.registry.table key = none := by
  induction events generalizing state with
  | nil =>
      cases executed
      exact observed
  | cons event rest ih =>
      obtain ⟨next, taken, continued⟩ := Option.bind_eq_some_iff.mp executed
      simp only [renewsDuring, taken, Bool.or_eq_false_iff] at unrenewed
      refine ih (step_valid valid taken) ?_ unrenewed.2 continued
      rcases step_registry taken with same | ⟨op, performed, renewal⟩
      · rwa [same]
      · have unaccepted : acceptedStamp state.registry key op = none := by
          have renewed := renewal key
          rw [unrenewed.1] at renewed
          simpa using renewed.symm
        rw [performed]
        rcases table_of_unaccepted valid unaccepted with same | removed
        · rwa [same]
        · exact .inr removed

section Failure

variable {history between : List Event} {node : DcNode} {start picked pending final : Dispatcher}

theorem FailedRequest.picked_eq (request : FailedRequest history between node start picked pending final) :
    picked = { start.update .pick with requests := start.requests ++ [some node] } := by
  have taken := request.taken
  simp only [step, request.picks, Option.some.injEq] at taken
  exact taken.symm

theorem FailedRequest.start_valid
    (request : FailedRequest history between node start picked pending final) :
    start.registry.Valid :=
  run_invariant (fun state => state.registry.Valid) (fun _ _ _ => step_valid) Registry.empty_valid
    request.reached

theorem FailedRequest.final_eq
    (request : FailedRequest history between node start picked pending final) :
    final.registry = failureRemoval pending.registry node := by
  have waits : picked.requests[start.requests.length]? = some (some node) := by
    simp [request.picked_eq]
  have slot := run_invariant (fun state => state.requests[start.requests.length]? = some (some node) ∨
    state.requests[start.requests.length]? = some none) (fun _ _ _ => step_request) (.inl waits)
    request.meanwhile
  have fails := request.fails
  rcases slot with here | gone
  · simp only [step, here, Option.some.injEq] at fails
    rw [← fails]
    rfl
  · simp [step, gone] at fails

/-- The failure branch removes the entry with the address of the node it had picked, whoever
registered it in the meantime, and nothing else. If nobody renewed the node while the call
was under way, that entry is the one observed at the pick. -/
theorem failure_removes_address
    (request : FailedRequest history between node start picked pending final) :
    final.registry.nodeVec = pending.registry.nodeVec.filter (fun entry => entry.key ≠ node.key) ∧
      final.registry.pickNum = pending.registry.pickNum ∧
      (renewsDuring node.key picked between = false →
        ∀ entry ∈ pending.registry.nodeVec, entry.key = node.key → entry = node) := by
  have startValid := request.start_valid
  have pickedValid : picked.registry.Valid := step_valid startValid request.taken
  have pendingValid : pending.registry.Valid :=
    run_invariant (fun state => state.registry.Valid) (fun _ _ _ => step_valid) pickedValid
      request.meanwhile
  rw [request.final_eq]
  refine ⟨eraseP_eq_filter pendingValid.distinct node.key, rfl, ?_⟩
  intro unrenewed entry member sameKey
  have observed : picked.registry.table node.key = some node.lHeartBeatTime := by
    have sameTable : picked.registry.table = start.registry.table := by
      rw [request.picked_eq]
      exact perform_table startValid .pick
    have answers := pick_answers startValid
    rw [request.picks] at answers
    rcases answers with none | ⟨found, same, stamped⟩
    · cases none
    · cases same
      rw [sameTable, stamped]
  have entryStamp : pending.registry.table entry.key = some entry.lHeartBeatTime :=
    lookup_of_mem pendingValid.distinct member
  rw [sameKey] at entryStamp
  rcases run_unrenewed pickedValid (.inl observed) unrenewed request.meanwhile with same | gone
  · have sameStamp : entry.lHeartBeatTime = node.lHeartBeatTime := by
      rw [entryStamp] at same
      exact Option.some.inj same
    obtain ⟨sameIp, samePort⟩ := Prod.mk.inj sameKey
    cases entry
    cases node
    simp_all
  · rw [entryStamp] at gone
    cases gone

def withRequest (nodeVec : List DcNode) (pickNum : Int) (requests : List (Option DcNode)) :
    Dispatcher :=
  { registry := { nodeVec := nodeVec, pickNum := pickNum }, requests := requests }

def failingNode : DcNode := ⟨"10.0.0.2", 6002, 0⟩

def otherNode : DcNode := ⟨"10.0.0.3", 6003, 40⟩

theorem failure_removes_address_otherJoins :
    (withRequest [otherNode] 1 [none]).registry.nodeVec =
        (withRequest [failingNode, otherNode] 1 [some failingNode]).registry.nodeVec.filter
          (fun entry => entry.key ≠ failingNode.key) ∧
      ∀ entry ∈ [failingNode, otherNode], entry.key = failingNode.key → entry = failingNode := by
  have request : FailedRequest [.registerWork ⟨"10.0.0.2", 6002⟩ 0]
      [.sweep 30, .registerWork ⟨"10.0.0.3", 6003⟩ 40] failingNode (withRequest [failingNode] 0 [])
      (withRequest [failingNode] 1 [some failingNode])
      (withRequest [failingNode, otherNode] 1 [some failingNode])
      (withRequest [otherNode] 1 [none]) :=
    ⟨by decide +kernel, by decide +kernel, by decide +kernel, by decide +kernel,
      by decide +kernel⟩
  have removal := failure_removes_address request
  exact ⟨removal.1, removal.2.2 (by decide +kernel)⟩

/-- The node registers again while the call is under way; the failure branch removes the new
registration. -/
theorem newerRegistration_is_removed :
    ¬ SparesRenewed [.registerWork ⟨"10.0.0.2", 6002⟩ 0]
      [.registerWork ⟨"10.0.0.2", 6002⟩ 40] := by
  intro claimed
  have request : FailedRequest [.registerWork ⟨"10.0.0.2", 6002⟩ 0]
      [.registerWork ⟨"10.0.0.2", 6002⟩ 40] failingNode (withRequest [failingNode] 0 [])
      (withRequest [failingNode] 1 [some failingNode])
      (withRequest [failingNode.stamp 40] 1 [some failingNode]) (withRequest [] 1 [none]) :=
    ⟨by decide +kernel, by decide +kernel, by decide +kernel, by decide +kernel,
      by decide +kernel⟩
  have spared := claimed _ _ _ _ _ request (by decide +kernel) (by decide +kernel)
  exact absurd spared (by decide +kernel)

end Failure

end Dispatcher

end DcCluster.Server
