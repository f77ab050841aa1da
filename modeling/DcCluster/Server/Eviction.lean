import Mathlib.Data.Nat.Choose.Basic
import DcCluster.Server.Dispatch
import DcCluster.Server.RoundRobin

/-!
How long a node can be passed over while no node joins. The cursor does not follow an
erase, so a node can lose its turn, but each time for a node that left: from a vector of
`n` nodes on, `n.choose 2` picks can miss a node and no more. A node that is dead is
therefore found out, and its entry goes with the first call that fails.
-/

namespace DcCluster.Server

open DcCluster.Lib
open scoped List

def NoJoin (registry : Registry) : Op → Prop
  | .registerWork clientInfo _ => clientInfo.key ∈ registry.keys
  | _ => True

instance NoJoin.decidable (registry : Registry) : ∀ op, Decidable (NoJoin registry op)
  | .registerWork clientInfo _ => inferInstanceAs (Decidable (clientInfo.key ∈ registry.keys))
  | .heartBeatWork _ _ | .sweep _ | .pick | .failureRemoval _ => isTrue trivial

/-- How many picks can pass over the node, now and after nodes have left. -/
def Registry.patience (registry : Registry) (key : NodeKey) : Nat :=
  registry.upcoming.idxOf key + (registry.nodeVec.length - 1).choose 2

section Step

variable {registry : Registry} {key : NodeKey}

theorem upcoming_length : registry.upcoming.length = registry.nodeVec.length := by
  rw [Registry.upcoming, List.length_rotate, registry.keys_length]

theorem patience_le (member : key ∈ registry.keys) :
    registry.patience key ≤ registry.nodeVec.length.choose 2 := by
  have waits : key ∈ registry.upcoming := List.mem_rotate.mpr member
  have position := List.idxOf_lt_length_iff.mpr waits
  rw [upcoming_length] at position
  obtain ⟨others, size⟩ : ∃ others, registry.nodeVec.length = others + 1 :=
    ⟨registry.nodeVec.length - 1, by omega⟩
  have pairs : (others + 1).choose 2 = others + others.choose 2 := by
    rw [Nat.choose_succ_succ, Nat.choose_one_right]
  simp only [Registry.patience, size, Nat.add_sub_cancel, pairs]
  omega

theorem patience_pick (valid : registry.Valid) (nonempty : registry.nodeVec ≠ [])
    (fits : registry.nodeVec.length ≤ intMax) (member : key ∈ registry.keys) {node : DcNode}
    (picked : (pick registry).2 = .node node) (other : node.key ≠ key) :
    (pick registry).1.patience key + 1 = registry.patience key := by
  obtain ⟨served, rest, picks, queue, turned, -⟩ := pick_serves valid nonempty fits
  cases picks.symm.trans picked
  have waits : key ∈ rest := by
    have inQueue : key ∈ registry.upcoming := List.mem_rotate.mpr member
    rw [queue] at inQueue
    exact (List.mem_cons.mp inQueue).resolve_left other.symm
  simp only [Registry.patience, pick_nodeVec, queue, turned, List.idxOf_cons_ne _ other,
    List.idxOf_append_of_mem waits]
  omega

theorem keys_sublist (valid : registry.Valid) {op : Op} (noJoin : NoJoin registry op) :
    (perform registry op).1.keys <+ registry.keys := by
  obtain ⟨fresh, changed⟩ := perform_keys valid op
  have none : fresh = [] := by
    refine List.eq_nil_iff_forall_not_mem.mpr fun other member => ?_
    have distinct := (perform_valid valid op).distinct
    have inKeys : other ∈ (perform registry op).1.keys := by
      rw [changed]
      exact List.mem_append_right _ member
    have old : other ∈ registry.keys := by
      by_contra absent
      have joins := (registered_of_absent valid []
        (not_not.mp (mt Registry.mem_keys_iff.mpr absent))).mp (Registry.mem_keys_iff.mp inKeys)
      cases op with
      | registerWork clientInfo clock =>
          cases joins
          exact absent noJoin
      | _ => exact joins
    have kept : other ∈ registry.keys.filter (fun key => key ∈ (perform registry op).1.keys) := by
      simp [old, inKeys]
    rw [← Registry.keys, changed] at distinct
    exact (List.nodup_append.mp distinct).2.2 other kept other member rfl
  rw [changed, none, List.append_nil]
  exact List.filter_sublist

theorem length_le_of_noJoin (valid : registry.Valid) {op : Op} (noJoin : NoJoin registry op) :
    (perform registry op).1.nodeVec.length ≤ registry.nodeVec.length := by
  rw [← Registry.keys_length, ← Registry.keys_length]
  exact (keys_sublist valid noJoin).length_le

theorem patience_other (valid : registry.Valid) {op : Op} (noJoin : NoJoin registry op)
    (other : op ≠ .pick) (member : key ∈ (perform registry op).1.keys) :
    (perform registry op).1.patience key ≤ registry.patience key := by
  have leaves := keys_sublist valid noJoin
  by_cases sameLength : (perform registry op).1.keys.length = registry.keys.length
  · have same := leaves.eq_of_length sameLength
    have sameSize : (perform registry op).1.nodeVec.length = registry.nodeVec.length := by
      rw [← Registry.keys_length, same, Registry.keys_length]
    simp only [Registry.patience, Registry.upcoming, same, sameSize, perform_pickNum other]
    exact Nat.le_refl _
  · have shorter := leaves.length_le
    rw [Registry.keys_length, Registry.keys_length] at sameLength shorter
    calc (perform registry op).1.patience key
        ≤ (perform registry op).1.nodeVec.length.choose 2 := patience_le member
      _ ≤ (registry.nodeVec.length - 1).choose 2 := Nat.choose_le_choose 2 (by omega)
      _ ≤ registry.patience key := Nat.le_add_left _ _

end Step

/-- Without joins a node that is registered at the end was so all along, and as long as it is
not picked every pick uses up its patience. -/
theorem picked_or_patience {registry : Registry} {key : NodeKey} {ops : List Op}
    (valid : registry.Valid) (fits : registry.nodeVec.length ≤ intMax)
    (noJoin : StepsMeet (fun state op => (perform state op).1) NoJoin registry ops)
    (member : key ∈ (performAll registry ops).keys) :
    key ∈ registry.keys ∧
      (key ∈ pickedKeys registry ops ∨
        (performAll registry ops).patience key + ops.count .pick ≤ registry.patience key) := by
  induction ops generalizing registry with
  | nil => exact ⟨member, .inr (Nat.le_refl _)⟩
  | cons op rest ih =>
      obtain ⟨now, later⟩ := stepsMeet_cons.mp noJoin
      have shorter := length_le_of_noJoin valid now
      obtain ⟨stays, outcome⟩ := ih (perform_valid valid op) (by omega) later member
      have present : key ∈ registry.keys := (keys_sublist valid now).subset stays
      refine ⟨present, ?_⟩
      have ends : performAll registry (op :: rest) = performAll (perform registry op).1 rest := rfl
      rw [ends]
      by_cases isPick : op = .pick
      · subst op
        have nonempty : registry.nodeVec ≠ [] := by
          intro empty
          simp [Registry.keys, empty] at present
        obtain ⟨node, -, picked, -⟩ := pick_serves valid nonempty fits
        rw [pickedKeys_cons_pick registry rest picked, List.count_cons_self]
        by_cases same : node.key = key
        · left
          simp [same]
        · rcases outcome with laterPicked | bound
          · exact .inl (List.mem_cons_of_mem _ laterPicked)
          · right
            have passed := patience_pick valid nonempty fits present picked same
            have next : (perform registry .pick).1 = (pick registry).1 := rfl
            rw [next] at bound ⊢
            omega
      · rw [pickedKeys_cons_other registry rest isPick, List.count_cons_of_ne isPick]
        rcases outcome with laterPicked | bound
        · exact .inl laterPicked
        · right
          have kept := patience_other valid now isPick stays
          omega

/-- In every run in which no node joins, from any reachable registry of `n` nodes: more than
`n.choose 2` picks take every node that is still registered, whatever sweeps, heartbeats and
failure removals come between them. -/
theorem picked_within (history ops : List Op)
    (small : (performAll Registry.empty history).nodeVec.length < 2147483648)
    (noJoin : StepsMeet (fun state op => (perform state op).1) NoJoin
      (performAll Registry.empty history) ops)
    (many : (performAll Registry.empty history).nodeVec.length.choose 2 < ops.count .pick) :
    ∀ key ∈ (performAll (performAll Registry.empty history) ops).keys,
      key ∈ pickedKeys (performAll Registry.empty history) ops := by
  intro key member
  have valid := performAll_valid Registry.empty_valid history
  have fits : (performAll Registry.empty history).nodeVec.length ≤ intMax := by
    simp only [intMax]
    omega
  obtain ⟨present, picked | bound⟩ := picked_or_patience valid fits noJoin member
  · exact picked
  · have patience := patience_le present
    omega

/-- The first of three nodes fails after two picks, and three picks have missed the third. -/
def missedThrice : List Op := [.pick, .pick, .failureRemoval ⟨"10.0.0.1", 1, 0⟩, .pick]

example : ("10.0.0.3", 3) ∉ pickedKeys (performAll Registry.empty threeNodes) missedThrice := by
  decide +kernel

theorem picked_within_missedThrice :
    ("10.0.0.3", 3) ∈
      pickedKeys (performAll Registry.empty threeNodes) (missedThrice ++ [.pick]) :=
  picked_within threeNodes (missedThrice ++ [.pick]) (by decide +kernel) (by decide +kernel)
    (by decide +kernel) ("10.0.0.3", 3) (by decide +kernel)

namespace Dispatcher

/-- No node joins, and a call fails exactly when its node is dead. -/
def Serves (dead : NodeKey → Bool) (state : Dispatcher) : Event → Prop
  | .registerWork clientInfo _ => clientInfo.key ∈ state.registry.keys
  | .clusterWorkReturned request bsuccess =>
      ∀ slot ∈ state.requests[request]?, ∀ node ∈ slot, bsuccess = !dead node.key
  | _ => True

instance Serves.decidable (dead : NodeKey → Bool) (state : Dispatcher) :
    ∀ event, Decidable (Serves dead state event)
  | .registerWork clientInfo _ =>
      inferInstanceAs (Decidable (clientInfo.key ∈ state.registry.keys))
  | .clusterWorkReturned request bsuccess =>
      inferInstanceAs (Decidable
        (∀ slot ∈ state.requests[request]?, ∀ node ∈ slot, bsuccess = !dead node.key))
  | .heartBeatWork _ _ | .sweep _ | .collectWork => isTrue trivial

def Waiting (key : NodeKey) (state : Dispatcher) : Prop :=
  ∃ node, some node ∈ state.requests ∧ node.key = key

section Step

variable {dead : NodeKey → Bool} {state next : Dispatcher} {event : Event} {key : NodeKey}

theorem step_op (serves : Serves dead state event) (taken : state.step event = some next) :
    next.registry = state.registry ∧ event ≠ .collectWork ∨
      ∃ op, next.registry = (perform state.registry op).1 ∧ NoJoin state.registry op ∧
        (op = .pick ↔ event = .collectWork) := by
  cases event with
  | registerWork clientInfo clock =>
      cases taken
      exact .inr ⟨.registerWork clientInfo clock, rfl, serves, by simp⟩
  | heartBeatWork heartBeatInfo clock =>
      cases taken
      exact .inr ⟨.heartBeatWork heartBeatInfo clock, rfl, trivial, by simp⟩
  | sweep lCheckTime =>
      cases taken
      exact .inr ⟨.sweep lCheckTime, rfl, trivial, by simp⟩
  | collectWork =>
      cases taken
      exact .inr ⟨.pick, rfl, trivial, by simp⟩
  | clusterWorkReturned request bsuccess =>
      simp only [step] at taken
      split at taken
      next node waiting =>
        cases taken
        cases bsuccess with
        | true => exact .inl ⟨rfl, by simp⟩
        | false => exact .inr ⟨.failureRemoval node, rfl, trivial, by simp⟩
      next => cases taken

theorem step_keys (valid : state.registry.Valid) (serves : Serves dead state event)
    (taken : state.step event = some next) : next.registry.keys <+ state.registry.keys := by
  rcases step_op serves taken with ⟨same, -⟩ | ⟨op, performed, noJoin, -⟩
  · rw [same]
  · rw [performed]
    exact keys_sublist valid noJoin

theorem step_waiting (valid : state.registry.Valid) (serves : Serves dead state event)
    (isDead : dead key = true) (taken : state.step event = some next)
    (found : Waiting key state ∨ key ∉ state.registry.keys) :
    Waiting key next ∨ key ∉ next.registry.keys := by
  rcases found with ⟨node, waits, isKey⟩ | absent
  · cases event with
    | collectWork =>
        cases taken
        exact .inl ⟨node, List.mem_append_left _ waits, isKey⟩
    | clusterWorkReturned request bsuccess =>
        have answered := serves
        simp only [step] at taken
        split at taken
        next other slot =>
          have failed := answered (some other) slot other rfl
          by_cases same : other.key = key
          · right
            rw [same, isDead, Bool.not_true] at failed
            subst failed
            cases taken
            rw [Registry.mem_keys_iff, not_not]
            refine (congrFun (perform_table valid (.failureRemoval other)) key).trans ?_
            rw [NodeMap.apply_failureRemoval, if_pos same.symm]
          · left
            have changed : next.requests = state.requests.set request none := by
              cases taken
              cases bsuccess <;> rfl
            obtain ⟨index, place⟩ := List.getElem?_of_mem waits
            have elsewhere : request ≠ index := by
              rintro rfl
              rw [slot] at place
              cases place
              exact same isKey
            refine ⟨node, ?_, isKey⟩
            rw [changed]
            exact List.mem_of_getElem? ((List.getElem?_set_ne elsewhere).trans place)
        next => cases taken
    | _ =>
        cases taken
        exact .inl ⟨node, waits, isKey⟩
  · right
    intro present
    exact absent ((step_keys valid serves taken).subset present)

theorem step_alive (valid : state.registry.Valid) (serves : Serves dead state event)
    (isAlive : dead key = false) (taken : state.step event = some next)
    (notSwept : ∀ lCheckTime, event ≠ .sweep lCheckTime) (present : key ∈ state.registry.keys) :
    key ∈ next.registry.keys := by
  obtain ⟨node, member, rfl⟩ := List.mem_map.mp present
  cases event with
  | registerWork clientInfo clock =>
      cases taken
      exact kept_of_not_erased valid member rfl
  | heartBeatWork heartBeatInfo clock =>
      cases taken
      exact kept_of_not_erased valid member rfl
  | sweep lCheckTime => exact absurd rfl (notSwept lCheckTime)
  | collectWork =>
      have kept : node.key ∈ (perform state.registry .pick).1.keys :=
        kept_of_not_erased valid member rfl
      cases taken
      exact kept
  | clusterWorkReturned request bsuccess =>
      have answered := serves
      simp only [step] at taken
      split at taken
      next other slot =>
        have failed := answered (some other) slot other rfl
        cases taken
        cases bsuccess with
        | true => exact present
        | false =>
            refine kept_of_not_erased valid member ?_
            have differs : node.key ≠ other.key := by
              intro same
              rw [← same, isAlive] at failed
              cases failed
            simpa [Op.erases] using differs
      next => cases taken

end Step

section Run

variable {dead : NodeKey → Bool} {state final : Dispatcher} {events : List Event} {key : NodeKey}

theorem run_keys (valid : state.registry.Valid)
    (serves : Permitted step (Serves dead) state events)
    (executed : run step state events = some final) :
    final.registry.keys <+ state.registry.keys := by
  have atStart : Reachable step (· = state) (Serves dead) state := .start rfl
  have holds : final.registry.Valid ∧ final.registry.keys <+ state.registry.keys := by
    refine Reachable.invariant
      (fun other => other.registry.Valid ∧ other.registry.keys <+ state.registry.keys)
      ?_ ?_ (atStart.append_run serves executed)
    · rintro other rfl
      exact ⟨valid, List.Sublist.refl _⟩
    · intro other event next _ kept fair taken
      exact ⟨step_valid kept.1 taken, (step_keys kept.1 fair taken).trans kept.2⟩
  exact holds.2

theorem run_waiting (valid : state.registry.Valid)
    (serves : Permitted step (Serves dead) state events)
    (executed : run step state events = some final) (isDead : dead key = true)
    (found : Waiting key state ∨ key ∉ state.registry.keys) :
    Waiting key final ∨ key ∉ final.registry.keys := by
  have atStart : Reachable step (· = state) (Serves dead) state := .start rfl
  have holds : final.registry.Valid ∧ (Waiting key final ∨ key ∉ final.registry.keys) := by
    refine Reachable.invariant
      (fun other => other.registry.Valid ∧ (Waiting key other ∨ key ∉ other.registry.keys))
      ?_ ?_ (atStart.append_run serves executed)
    · rintro other rfl
      exact ⟨valid, found⟩
    · intro other event next _ kept fair taken
      exact ⟨step_valid kept.1 taken, step_waiting kept.1 fair isDead taken kept.2⟩
  exact holds.2

/-- A dead node that is registered when all requests are answered was never picked. -/
theorem run_missed (valid : state.registry.Valid) (fits : state.registry.nodeVec.length ≤ intMax)
    (serves : Permitted step (Serves dead) state events)
    (executed : run step state events = some final) (isDead : dead key = true)
    (answered : ∀ request ∈ final.requests, request = none)
    (member : key ∈ final.registry.keys) :
    key ∈ state.registry.keys ∧
      final.registry.patience key + events.count .collectWork ≤ state.registry.patience key := by
  induction events generalizing state with
  | nil =>
      cases executed
      exact ⟨member, Nat.le_refl _⟩
  | cons event rest ih =>
      obtain ⟨next, taken, continued⟩ := Option.bind_eq_some_iff.mp executed
      have later := serves.2 next taken
      have nextValid := step_valid valid taken
      have leaves := step_keys valid serves.1 taken
      have shorter := leaves.length_le
      rw [Registry.keys_length, Registry.keys_length] at shorter
      obtain ⟨stays, bound⟩ := ih nextValid (by omega) later continued
      have present := leaves.subset stays
      refine ⟨present, ?_⟩
      rcases step_op serves.1 taken with ⟨same, notPick⟩ | ⟨op, performed, noJoin, isPick⟩
      · rw [same] at bound
        rwa [List.count_cons_of_ne notPick]
      · by_cases picks : event = .collectWork
        · have opIsPick := isPick.mpr picks
          subst picks opIsPick
          have nonempty : state.registry.nodeVec ≠ [] := by
            intro empty
            simp [Registry.keys, empty] at present
          obtain ⟨node, -, picked, -⟩ := pick_serves valid nonempty fits
          have requests : next.requests = state.requests ++ [some node] := by
            simp only [step, picked, Option.some.injEq] at taken
            rw [← taken]
          -- A request that picked the node would have removed it by now.
          have other : node.key ≠ key := by
            intro same
            have waits : Waiting key next := ⟨node, by simp [requests], same⟩
            rcases run_waiting nextValid later continued isDead (.inl waits) with
              ⟨left, inRequests, -⟩ | gone
            · cases answered (some left) inRequests
            · exact gone member
          have passed := patience_pick valid nonempty fits present picked other
          have sameRegistry : next.registry = (pick state.registry).1 := performed
          rw [sameRegistry] at bound
          rw [List.count_cons_self]
          omega
        · have notPick : op ≠ .pick := fun same => picks (isPick.mp same)
          rw [performed] at bound stays
          have kept := patience_other valid noJoin notPick stays
          rw [List.count_cons_of_ne picks]
          omega

theorem run_alive (valid : state.registry.Valid)
    (serves : Permitted step (Serves dead) state events)
    (executed : run step state events = some final) (isAlive : dead key = false)
    (notSwept : ∀ lCheckTime, Event.sweep lCheckTime ∉ events)
    (present : key ∈ state.registry.keys) : key ∈ final.registry.keys := by
  induction events generalizing state with
  | nil =>
      cases executed
      exact present
  | cons event rest ih =>
      obtain ⟨next, taken, continued⟩ := Option.bind_eq_some_iff.mp executed
      have first (lCheckTime : Int) : event ≠ .sweep lCheckTime := by
        rintro rfl
        exact notSwept lCheckTime (by simp)
      have stays := step_alive valid serves.1 isAlive taken first present
      refine ih (step_valid valid taken) (serves.2 next taken) continued ?_ stays
      intro lCheckTime member
      exact notSwept lCheckTime (List.mem_cons_of_mem _ member)

end Run

/-- In every interleaving of requests with the other users of the registry, from any reachable
state with `n` nodes: if no node joins and calls fail exactly for the dead nodes, then once more
than `n.choose 2` requests were made and all are answered, no dead node is registered; and unless
a sweep ran, every other node still is. -/
theorem deadNodes_evicted {dead : NodeKey → Bool} {history events : List Event}
    {start final : Dispatcher} (reached : run step initial history = some start)
    (small : start.registry.nodeVec.length < 2147483648)
    (serves : Permitted step (Serves dead) start events)
    (executed : run step start events = some final)
    (answered : ∀ request ∈ final.requests, request = none)
    (many : start.registry.nodeVec.length.choose 2 < events.count .collectWork) :
    (∀ key ∈ final.registry.keys, key ∈ start.registry.keys ∧ dead key = false) ∧
      ((∀ lCheckTime, Event.sweep lCheckTime ∉ events) →
        ∀ key ∈ start.registry.keys, dead key = false → key ∈ final.registry.keys) := by
  have valid : start.registry.Valid :=
    run_invariant (fun state => state.registry.Valid) (fun _ _ _ => step_valid)
      Registry.empty_valid reached
  have fits : start.registry.nodeVec.length ≤ intMax := by
    simp only [intMax]
    omega
  constructor
  · intro key member
    refine ⟨(run_keys valid serves executed).subset member, ?_⟩
    by_contra isDead
    rw [Bool.not_eq_false] at isDead
    obtain ⟨present, bound⟩ := run_missed valid fits serves executed isDead answered member
    have patience := patience_le present
    omega
  · intro notSwept key present isAlive
    exact run_alive valid serves executed isAlive notSwept present

def secondIsDead (key : NodeKey) : Bool := key = ("10.0.0.2", 2)

def threeRegistered : List Event :=
  [.registerWork ⟨"10.0.0.1", 1⟩ 0, .registerWork ⟨"10.0.0.2", 2⟩ 0, .registerWork ⟨"10.0.0.3", 3⟩ 0]

def fourRequests : List Event :=
  [.collectWork, .collectWork, .clusterWorkReturned 1 false, .clusterWorkReturned 0 true,
    .collectWork, .clusterWorkReturned 2 true, .collectWork, .clusterWorkReturned 3 true]

def twoLeft : Dispatcher :=
  { registry := { nodeVec := [⟨"10.0.0.1", 1, 0⟩, ⟨"10.0.0.3", 3, 0⟩], pickNum := 2 }
    requests := [none, none, none, none] }

def threeNodesUp : Dispatcher :=
  { registry :=
      { nodeVec := [⟨"10.0.0.1", 1, 0⟩, ⟨"10.0.0.2", 2, 0⟩, ⟨"10.0.0.3", 3, 0⟩], pickNum := 0 }
    requests := [] }

theorem deadNodes_evicted_fourRequests :
    (∀ key ∈ twoLeft.registry.keys, key ∈ threeNodesUp.registry.keys ∧ secondIsDead key = false) ∧
      ((∀ lCheckTime, Event.sweep lCheckTime ∉ fourRequests) →
        ∀ key ∈ threeNodesUp.registry.keys, secondIsDead key = false →
          key ∈ twoLeft.registry.keys) := by
  have reached : run step initial threeRegistered = some threeNodesUp := by decide +kernel
  have executed : run step threeNodesUp fourRequests = some twoLeft := by decide +kernel
  have serves : Permitted step (Serves secondIsDead) threeNodesUp fourRequests := by
    decide +kernel
  exact deadNodes_evicted reached (by decide) serves executed (by decide) (by decide)

end Dispatcher

end DcCluster.Server
