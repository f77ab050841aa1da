import DcCluster.Lib.RotatingQueue
import DcCluster.Lib.Transition
import DcCluster.Server.Registry

/-!
The order in which `CollectWorkProc` picks nodes. Read from the cursor on, the
vector is a queue: a pick serves its head and sends it to the back, whatever
`pickNum` was left over from a longer vector. While no node joins or leaves, the
queue only turns. An erased entry that the cursor has passed shifts the entries
after it and not the cursor, so the next node loses its turn.
-/

namespace DcCluster.Server

open DcCluster.Lib
open scoped List

/-- The nodes in the order of the picks to come. -/
def Registry.upcoming (registry : Registry) : List NodeKey :=
  registry.keys.rotate registry.pickNum.toNat

def pickedKeys : Registry → List Op → List NodeKey
  | _, [] => []
  | registry, op :: rest =>
      match (perform registry op).2 with
      | .picked (.node node) => node.key :: pickedKeys (perform registry op).1 rest
      | _ => pickedKeys (perform registry op).1 rest

theorem Registry.Valid.upcoming_nodup {registry : Registry} (valid : registry.Valid) :
    registry.upcoming.Nodup :=
  (List.rotate_perm _ _).nodup_iff.mpr valid.distinct

section Pick

variable {registry : Registry}

theorem pick_eq (valid : registry.Valid) (nonempty : registry.nodeVec ≠ [])
    (fits : registry.nodeVec.length ≤ intMax) :
    ∃ index, ∃ inside : index < registry.nodeVec.length,
      index = registry.pickNum.toNat % registry.nodeVec.length ∧
      registry.pickNum.tmod (nodeSize registry.nodeVec) = index ∧
      pick registry = ({ registry with pickNum := index + 1 }, .node registry.nodeVec[index]) := by
  have size : nodeSize registry.nodeVec = registry.nodeVec.length := toInt_of_fits fits
  have positive := List.length_pos_of_ne_nil nonempty
  have inside := Nat.mod_lt registry.pickNum.toNat positive
  have index : registry.pickNum.tmod (nodeSize registry.nodeVec) =
      (registry.pickNum.toNat % registry.nodeVec.length : Nat) := by
    rw [size, ← Int.toNat_of_nonneg valid.cursor, ← Int.ofNat_tmod, Int.toNat_natCast]
  refine ⟨_, inside, rfl, index, ?_⟩
  have sized : 0 < nodeSize registry.nodeVec := by omega
  simp only [pick, gt_iff_lt, if_pos sized, index, Int.toNat_natCast,
    List.getElem?_eq_getElem inside]
  rw [if_pos (Int.natCast_nonneg _)]

/-- A pick on a vector that is not empty takes the head of the queue and turns it. -/
theorem pick_serves (valid : registry.Valid) (nonempty : registry.nodeVec ≠ [])
    (fits : registry.nodeVec.length ≤ intMax) :
    ∃ node rest, (pick registry).2 = .node node ∧ registry.upcoming = node.key :: rest ∧
      (pick registry).1.upcoming = rest ++ [node.key] ∧
      (pick registry).1.pickNum.toNat ≤ registry.nodeVec.length := by
  obtain ⟨index, inside, reduced, -, picked⟩ := pick_eq valid nonempty fits
  have keyed : index < registry.keys.length := by rwa [registry.keys_length]
  have atIndex : registry.keys[index] = registry.nodeVec[index].key := List.getElem_map _
  refine ⟨registry.nodeVec[index], registry.keys.drop (index + 1) ++ registry.keys.take index,
    by rw [picked], ?_, ?_, ?_⟩
  · rw [Registry.upcoming, List.rotate_eq_drop_append_take_mod, registry.keys_length, ← reduced,
      List.drop_eq_getElem_cons keyed, atIndex, List.cons_append]
  · have cursor : (pick registry).1.pickNum.toNat = index + 1 := by rw [picked]; rfl
    have same : (pick registry).1.keys = registry.keys :=
      congrArg (List.map DcNode.key) (pick_nodeVec registry)
    rw [Registry.upcoming, cursor, same, List.rotate_eq_drop_append_take keyed,
      List.take_succ_eq_append_getElem keyed, atIndex, List.append_assoc]
  · rw [picked]
    exact inside

end Pick

theorem perform_pickNum {registry : Registry} {op : Op} (other : op ≠ .pick) :
    (perform registry op).1.pickNum = registry.pickNum := by
  cases op with
  | registerWork clientInfo clock =>
      simp only [perform, registerWork]
      split <;> rfl
  | pick => exact absurd rfl other
  | _ => rfl

theorem perform_picked {registry : Registry} {op : Op} {picked : Picked}
    (answered : (perform registry op).2 = .picked picked) : op = .pick := by
  cases op <;> simp_all [perform]

theorem pickedKeys_cons_pick (registry : Registry) (rest : List Op) {node : DcNode}
    (picked : (pick registry).2 = .node node) :
    pickedKeys registry (.pick :: rest) = node.key :: pickedKeys (pick registry).1 rest := by
  simp only [pickedKeys, perform, picked]

theorem pickedKeys_cons_other (registry : Registry) {op : Op} (rest : List Op)
    (other : op ≠ .pick) :
    pickedKeys registry (op :: rest) = pickedKeys (perform registry op).1 rest := by
  simp only [pickedKeys]
  split
  next answered => exact absurd (perform_picked answered) other
  next => rfl

theorem pickedKeys_append (registry : Registry) (done rest : List Op) :
    pickedKeys registry (done ++ rest) =
      pickedKeys registry done ++ pickedKeys (performAll registry done) rest := by
  induction done generalizing registry with
  | nil => rfl
  | cons op done ih =>
      simp only [List.cons_append, pickedKeys]
      split
      · rw [ih, List.cons_append]
        rfl
      · exact ih _

/-- An operation drops keys and appends new ones; those that stay keep their order. -/
theorem perform_keys {registry : Registry} (valid : registry.Valid) (op : Op) :
    ∃ fresh, (perform registry op).1.keys =
      registry.keys.filter (fun key => key ∈ (perform registry op).1.keys) ++ fresh := by
  have dropped : (perform registry op).1.keys <+ registry.keys → ∃ fresh,
      (perform registry op).1.keys =
        registry.keys.filter (fun key => key ∈ (perform registry op).1.keys) ++ fresh := by
    intro sublist
    refine ⟨[], ?_⟩
    rw [List.append_nil]
    exact eq_filter_mem_of_sublist valid.distinct sublist
  cases op with
  | registerWork clientInfo clock =>
      cases absent : registry.table clientInfo.key with
      | none =>
          have appended : (perform registry (.registerWork clientInfo clock)).1.keys =
              registry.keys ++ [clientInfo.key] := by
            simp only [perform, Registry.keys, registerWork_of_absent registry clientInfo clock absent,
              List.map_append, List.map_singleton]
            rfl
          refine ⟨[clientInfo.key], ?_⟩
          rw [appended]
          congr 1
          refine (List.filter_eq_self.mpr fun key member => ?_).symm
          simp [member]
      | some _ =>
          apply dropped
          simp only [perform, Registry.keys,
            registerWork_of_present registry clientInfo clock (by simp [absent]), stampFirst_keys]
          exact List.Sublist.refl _
  | heartBeatWork heartBeatInfo clock =>
      apply dropped
      simp only [perform, heartBeatWork, Registry.keys, stampFirst_keys]
      exact List.Sublist.refl _
  | sweep lCheckTime =>
      apply dropped
      simp only [perform, sweep, Registry.keys, sweepFrom_eq_filter]
      exact List.filter_sublist.map _
  | pick =>
      apply dropped
      simp only [perform, Registry.keys, pick_nodeVec]
      exact List.Sublist.refl _
  | failureRemoval node =>
      apply dropped
      exact List.eraseP_sublist.map _

section Stable

/-- The nodes of both registries are the same, possibly with other stamps. -/
def Registry.SameNodes (registry other : Registry) : Prop :=
  ∀ key, key ∈ other.keys ↔ key ∈ registry.keys

theorem perform_keys_stable {registry : Registry} (valid : registry.Valid) {op : Op}
    (same : registry.SameNodes (perform registry op).1) :
    (perform registry op).1.keys = registry.keys := by
  obtain ⟨fresh, changed⟩ := perform_keys valid op
  have kept : registry.keys.filter (fun key => key ∈ (perform registry op).1.keys) =
      registry.keys := by
    refine List.filter_eq_self.mpr fun key member => ?_
    simpa using (same key).mpr member
  rw [kept] at changed
  have none : fresh = [] := by
    refine List.eq_nil_iff_forall_not_mem.mpr fun key member => ?_
    have distinct : (registry.keys ++ fresh).Nodup := changed ▸ (perform_valid valid op).distinct
    have old : key ∈ registry.keys := (same key).mp (by simp [changed, member])
    exact (List.nodup_append.mp distinct).2.2 key old key member rfl
  rw [changed, none, List.append_nil]

/-- While the nodes stay the same, the picks are served by the queue in turn. -/
theorem pickedKeys_eq_served {original registry : Registry} (valid : registry.Valid)
    (nonempty : registry.nodeVec ≠ []) (fits : registry.nodeVec.length ≤ intMax) {ops : List Op}
    (stable : AlongRun (fun state op => (perform state op).1) original.SameNodes registry ops) :
    pickedKeys registry ops = served registry.upcoming (ops.count .pick) := by
  induction ops generalizing registry with
  | nil => rfl
  | cons op rest ih =>
      obtain ⟨before, later⟩ := alongRun_cons.mp stable
      have after : original.SameNodes (perform registry op).1 := later [] List.nil_prefix
      have same : (perform registry op).1.keys = registry.keys :=
        perform_keys_stable valid fun key => (after key).trans (before key).symm
      have sameLength : (perform registry op).1.nodeVec.length = registry.nodeVec.length := by
        rw [← Registry.keys_length, same, Registry.keys_length]
      have stillNonempty : (perform registry op).1.nodeVec ≠ [] := by
        rw [← List.length_pos_iff, sameLength]
        exact List.length_pos_of_ne_nil nonempty
      have continued := ih (perform_valid valid op) stillNonempty (by omega) later
      by_cases isPick : op = .pick
      · subst op
        obtain ⟨node, waiting, picked, queue, turned, _⟩ := pick_serves valid nonempty fits
        have next : (perform registry .pick).1 = (pick registry).1 := rfl
        rw [next, turned] at continued
        rw [pickedKeys_cons_pick registry rest picked, continued, queue, List.count_cons_self]
        rfl
      · have sameQueue : (perform registry op).1.upcoming = registry.upcoming := by
          rw [Registry.upcoming, same, perform_pickNum isPick, Registry.upcoming]
        rw [pickedKeys_cons_other registry rest isPick, continued, sameQueue,
          List.count_cons_of_ne isPick]

end Stable

theorem perform_pickNum_le {registry : Registry} (op : Op) (bounded : registry.pickNum ≤ intMax) :
    (perform registry op).1.pickNum ≤ intMax := by
  by_cases isPick : op = .pick
  · subst op
    by_cases positive : 0 < nodeSize registry.nodeVec
    · have upper := Int.tmod_lt_of_pos registry.pickNum positive
      have size : nodeSize registry.nodeVec ≤ intMax := toInt_le_intMax _
      simp only [perform, pick, gt_iff_lt, if_pos positive]
      split <;> (simp only; omega)
    · simp only [perform, pick_of_nonpositive positive]
      exact bounded
  · rw [perform_pickNum isPick]
    exact bounded

theorem performAll_pickNum_le (history : List Op) :
    (performAll Registry.empty history).pickNum ≤ intMax := by
  induction history using List.reverseRecOn with
  | nil => decide
  | append_singleton before op ih =>
      rw [performAll, List.foldl_append]
      exact perform_pickNum_le op ih

/-- In every reachable registry a pick reads inside the vector and the cursor stays an
`int`, and while the nodes stay the same, `rounds` times as many picks as nodes take every
node `rounds` times. -/
theorem picks_balanced (history : List Op) :
    let registry := performAll Registry.empty history
    (0 ≤ registry.pickNum ∧ registry.pickNum ≤ intMax) ∧
      (registry.nodeVec ≠ [] → registry.nodeVec.length < 2147483648 →
        (∃ index, ∃ inside : index < registry.nodeVec.length,
          registry.pickNum.tmod (nodeSize registry.nodeVec) = index ∧ index + 1 ≤ intMax ∧
          perform registry .pick = ({ registry with pickNum := index + 1 },
            .picked (.node registry.nodeVec[index]))) ∧
        ∀ ops rounds,
          AlongRun (fun state op => (perform state op).1) registry.SameNodes registry ops →
          ops.count .pick = rounds * registry.nodeVec.length →
          ∀ node ∈ registry.nodeVec, (pickedKeys registry ops).count node.key = rounds) := by
  intro registry
  have valid : registry.Valid := performAll_valid Registry.empty_valid history
  refine ⟨⟨valid.cursor, performAll_pickNum_le history⟩, fun nonempty small => ?_⟩
  have fits : registry.nodeVec.length ≤ intMax := by
    simp only [intMax]
    omega
  constructor
  · obtain ⟨index, inside, -, reduced, picked⟩ := pick_eq valid nonempty fits
    refine ⟨index, inside, reduced, by omega, ?_⟩
    simp only [perform, picked]
  · intro ops rounds stable turns node member
    have waiting : node.key ∈ registry.upcoming :=
      List.mem_rotate.mpr (List.mem_map_of_mem member)
    have length : registry.upcoming.length = registry.nodeVec.length := by
      rw [Registry.upcoming, List.length_rotate, registry.keys_length]
    rw [pickedKeys_eq_served valid nonempty fits stable, turns, ← length]
    exact count_served_rounds valid.upcoming_nodup waiting rounds

/-- Three nodes of which one was removed leave `pickNum` at 3 on a vector of two. -/
def staleCursor : List Op :=
  [.registerWork ⟨"10.0.0.1", 1⟩ 0, .registerWork ⟨"10.0.0.2", 2⟩ 0, .registerWork ⟨"10.0.0.3", 3⟩ 0,
    .pick, .pick, .pick, .failureRemoval ⟨"10.0.0.1", 1, 0⟩]

def twoRounds : List Op :=
  [.pick, .heartBeatWork ⟨"10.0.0.2", 2⟩ 5, .pick, .pick, .sweep 60, .pick]

theorem picks_balanced_staleCursor :
    (pickedKeys (performAll Registry.empty staleCursor) twoRounds).count ("10.0.0.3", 3) = 2 := by
  have kept : ∀ done ∈ twoRounds.inits,
      (performAll (performAll Registry.empty staleCursor) done).keys =
        (performAll Registry.empty staleCursor).keys := by decide +kernel
  have balanced := (picks_balanced staleCursor).2 (by decide +kernel) (by decide +kernel)
  have stable : AlongRun (fun state op => (perform state op).1)
      (performAll Registry.empty staleCursor).SameNodes (performAll Registry.empty staleCursor)
      twoRounds := by
    intro done prefixes key
    exact iff_of_eq (congrArg (key ∈ ·) (kept done ((List.mem_inits _ _).mpr prefixes)))
  exact balanced.2 twoRounds 2 stable (by decide +kernel) ⟨"10.0.0.3", 3, 0⟩ (by decide +kernel)

section Churn

def Op.erases : Op → DcNode → Bool
  | .sweep lCheckTime, node => lCheckTime - node.lHeartBeatTime > 60 * 1000
  | .failureRemoval failed, node => node.key = failed.key
  | _, _ => false

/-- No entry that the cursor has passed is erased, and the size of the vector is an `int`
when a node is picked. -/
def KeepsTurns (registry : Registry) (op : Op) : Prop :=
  (op = .pick → registry.nodeVec.length < 2147483648) ∧
    ∀ node ∈ registry.nodeVec.take registry.pickNum.toNat, op.erases node = false

instance (registry : Registry) (op : Op) : Decidable (KeepsTurns registry op) :=
  inferInstanceAs (Decidable (_ ∧ _))

/-- If two picks take `x` and both nodes stay registered from the one to the other, then
`y` is picked between them. -/
def PickedBetween (history between : List Op) (x y : NodeKey) : Prop :=
  let start := performAll Registry.empty history
  let first := (perform start .pick).1
  x ≠ y → pickedKeys start [.pick] = [x] → pickedKeys (performAll first between) [.pick] = [x] →
    AlongRun (fun state op => (perform state op).1)
      (fun state => x ∈ state.keys ∧ y ∈ state.keys) first between →
    y ∈ pickedKeys first between

theorem kept_of_not_erased {registry : Registry} (valid : registry.Valid) {op : Op} {node : DcNode}
    (member : node ∈ registry.nodeVec) (spared : op.erases node = false) :
    node.key ∈ (perform registry op).1.keys := by
  have stamped : registry.table node.key = some node.lHeartBeatTime :=
    lookup_of_mem valid.distinct member
  rw [Registry.mem_keys_iff, perform_table valid op]
  cases op with
  | registerWork clientInfo clock =>
      rw [NodeMap.apply_registerWork, stamped]
      split <;> simp
  | heartBeatWork heartBeatInfo clock =>
      rw [NodeMap.apply_heartBeatWork, stamped]
      split <;> simp
  | sweep lCheckTime =>
      simp only [Op.erases, decide_eq_false_iff_not] at spared
      have recent : NodeMap.recent lCheckTime node.lHeartBeatTime = true := by
        simp only [NodeMap.recent, decide_eq_true_eq]
        omega
      simp [NodeMap.apply, stamped, recent]
  | pick => simp [NodeMap.apply, stamped]
  | failureRemoval failed =>
      simp only [Op.erases, decide_eq_false_iff_not] at spared
      simp [NodeMap.apply_failureRemoval, spared, stamped]

variable {registry : Registry} {x y : NodeKey}

/-- `y` waits before `x` in the queue, and the cursor is not left over from a longer vector. -/
structure Ahead (x y : NodeKey) (registry : Registry) : Prop where
  valid : registry.Valid
  cursor : registry.pickNum.toNat ≤ registry.nodeVec.length
  waits : [y, x] <+ registry.upcoming

theorem Ahead.churn (ahead : Ahead x y registry) {op : Op} (other : op ≠ .pick)
    (keeps : KeepsTurns registry op)
    (registered : x ∈ (perform registry op).1.keys ∧ y ∈ (perform registry op).1.keys) :
    Ahead x y (perform registry op).1 := by
  obtain ⟨fresh, changed⟩ := perform_keys ahead.valid op
  let keep : NodeKey → Bool := fun key => key ∈ (perform registry op).1.keys
  let cursor := registry.pickNum.toNat
  have passed : (registry.keys.take cursor).filter keep = registry.keys.take cursor := by
    refine List.filter_eq_self.mpr fun key member => ?_
    rw [Registry.keys, ← List.map_take] at member
    obtain ⟨node, taken, rfl⟩ := List.mem_map.mp member
    have kept := kept_of_not_erased ahead.valid (List.mem_of_mem_take taken) (keeps.2 node taken)
    simpa [keep] using kept
  have split : (perform registry op).1.keys =
      registry.keys.take cursor ++ ((registry.keys.drop cursor).filter keep ++ fresh) := by
    rw [changed, ← List.append_assoc]
    nth_rewrite 1 [← List.take_append_drop cursor registry.keys]
    rw [List.filter_append]
    congr 2
  have length : (registry.keys.take cursor).length = cursor := by
    rw [List.length_take, registry.keys_length]
    exact min_eq_left ahead.cursor
  refine ⟨perform_valid ahead.valid op, ?_, ?_⟩
  · rw [perform_pickNum other, ← Registry.keys_length, split, List.length_append, length]
    omega
  · have waits := ahead.waits
    rw [Registry.upcoming, List.rotate_eq_drop_append_take
      (by rw [registry.keys_length]; exact ahead.cursor)] at waits
    have turned : (perform registry op).1.upcoming =
        (registry.keys.drop cursor).filter keep ++ fresh ++ (registry.keys.take cursor).filter keep := by
      have rotated := List.rotate_append_length_eq (registry.keys.take cursor)
        ((registry.keys.drop cursor).filter keep ++ fresh)
      rw [length] at rotated
      rw [Registry.upcoming, perform_pickNum other, split, passed]
      exact rotated
    rw [turned]
    exact waits_after_churn keep fresh waits (by simpa [keep] using registered.2)
      (by simpa [keep] using registered.1)

theorem Ahead.pick (ahead : Ahead x y registry) (small : registry.nodeVec.length < 2147483648) :
    pickedKeys registry [.pick] = [y] ∨
      (pickedKeys registry [.pick] ≠ [x] ∧ Ahead x y (pick registry).1) := by
  have nonempty : registry.nodeVec ≠ [] := by
    intro empty
    have waits := ahead.waits
    simp [Registry.upcoming, Registry.keys, empty] at waits
  obtain ⟨node, rest, picked, queue, turned, cursor⟩ :=
    pick_serves ahead.valid nonempty (by simp only [intMax]; omega)
  have only : pickedKeys registry [.pick] = [node.key] := pickedKeys_cons_pick registry [] picked
  by_cases served : node.key = y
  · left
    rw [only, served]
  · right
    have distinct := ahead.valid.upcoming_nodup
    have waits := ahead.waits
    rw [queue] at distinct waits
    obtain ⟨other, waitsOn⟩ := waits_after_turn distinct waits served
    constructor
    · rw [only]
      simpa using other
    · exact ⟨pick_valid ahead.valid, by rwa [pick_nodeVec], by rwa [turned]⟩

/-- Up to a pick of `y`, no pick takes `x`. -/
theorem picked_or_ahead {between : List Op} (ahead : Ahead x y registry)
    (registered : AlongRun (fun state op => (perform state op).1)
      (fun state => x ∈ state.keys ∧ y ∈ state.keys) registry between)
    (keeps : StepsMeet (fun state op => (perform state op).1) KeepsTurns registry between) :
    y ∈ pickedKeys registry between ∨ Ahead x y (performAll registry between) := by
  induction between generalizing registry with
  | nil => exact .inr ahead
  | cons op rest ih =>
      obtain ⟨_, later⟩ := alongRun_cons.mp registered
      obtain ⟨now, keepsOn⟩ := stepsMeet_cons.mp keeps
      by_cases isPick : op = .pick
      · subst op
        have split := pickedKeys_append registry [.pick] rest
        rw [List.singleton_append] at split
        rw [split]
        rcases ahead.pick (now.1 rfl) with served | ⟨_, aheadOn⟩
        · left
          simp [served]
        · rcases ih aheadOn later keepsOn with picked | ended
          · exact .inl (List.mem_append_right _ picked)
          · exact .inr ended
      · rw [pickedKeys_cons_other registry rest isPick]
        exact ih (ahead.churn isPick now (later [] List.nil_prefix)) later keepsOn

theorem ahead_after_pick (valid : registry.Valid) (small : registry.nodeVec.length < 2147483648)
    (different : x ≠ y) (picked : pickedKeys registry [.pick] = [x])
    (member : y ∈ registry.keys) : Ahead x y (pick registry).1 := by
  have nonempty : registry.nodeVec ≠ [] := by
    intro empty
    simp [Registry.keys, empty] at member
  obtain ⟨node, rest, answer, queue, turned, cursor⟩ :=
    pick_serves valid nonempty (by simp only [intMax]; omega)
  have isX : node.key = x := by
    rw [pickedKeys_cons_pick registry [] answer] at picked
    exact (List.cons.inj picked).1
  have waiting : y ∈ rest := by
    have inQueue : y ∈ registry.upcoming := List.mem_rotate.mpr member
    rw [queue, isX] at inQueue
    exact (List.mem_cons.mp inQueue).resolve_left different.symm
  refine ⟨pick_valid valid, by rwa [pick_nodeVec], ?_⟩
  rw [turned, isX]
  exact waits_behind waiting

/-- In every run, a node that stays registered is picked between two picks of another one
if, from the one pick to the other, no entry that the cursor has passed is erased. -/
theorem pickedBetween_of_keepsTurns (history between : List Op) (x y : NodeKey)
    (keeps : StepsMeet (fun state op => (perform state op).1) KeepsTurns
      (performAll Registry.empty history) (.pick :: between ++ [.pick])) :
    PickedBetween history between x y := by
  intro different firstPick lastPick registered
  let start := performAll Registry.empty history
  let first := (perform start .pick).1
  have valid : start.Valid := performAll_valid Registry.empty_valid history
  rw [List.cons_append] at keeps
  obtain ⟨atFirst, later⟩ := stepsMeet_cons.mp keeps
  have inKeys : y ∈ first.keys := (registered [] List.nil_prefix).2
  have sameKeys : first.keys = start.keys := congrArg (List.map DcNode.key) (pick_nodeVec start)
  have ahead : Ahead x y first :=
    ahead_after_pick valid (atFirst.1 rfl) different firstPick (sameKeys ▸ inKeys)
  have during : StepsMeet (fun state op => (perform state op).1) KeepsTurns first between :=
    fun done op prefixes => later done op (prefixes.trans (List.prefix_append between [.pick]))
  have atLast : KeepsTurns (performAll first between) .pick :=
    later between .pick (List.prefix_rfl)
  rcases picked_or_ahead ahead registered during with picked | aheadAtLast
  · exact picked
  · rcases aheadAtLast.pick (atLast.1 rfl) with picksY | ⟨notX, _⟩
    · rw [lastPick] at picksY
      exact absurd (List.cons.inj picksY).1 different
    · exact absurd lastPick notX

def threeNodes : List Op :=
  [.registerWork ⟨"10.0.0.1", 1⟩ 0, .registerWork ⟨"10.0.0.2", 2⟩ 0, .registerWork ⟨"10.0.0.3", 3⟩ 0]

def fullRound : List Op := threeNodes ++ [.pick, .pick, .pick]

/-- The third node fails its dispatch and registers again, all behind the cursor. -/
def flappingTail : List Op :=
  [.failureRemoval ⟨"10.0.0.3", 3, 0⟩, .registerWork ⟨"10.0.0.3", 3⟩ 9, .pick, .pick]

theorem pickedBetween_of_keepsTurns_flappingTail :
    ("10.0.0.2", 2) ∈
      pickedKeys (perform (performAll Registry.empty fullRound) .pick).1 flappingTail := by
  have keeps : StepsMeet (fun state op => (perform state op).1) KeepsTurns
      (performAll Registry.empty fullRound) (.pick :: flappingTail ++ [.pick]) := by decide +kernel
  have claimed := pickedBetween_of_keepsTurns fullRound flappingTail ("10.0.0.1", 1)
    ("10.0.0.2", 2) keeps
  exact claimed (by decide) (by decide +kernel) (by decide +kernel) (by decide +kernel)

/-- The first of three nodes fails after the second was picked: the second is picked again
and the third loses its turn. -/
theorem failedNode_costs_turn :
    ¬ PickedBetween (threeNodes ++ [.pick]) [.failureRemoval ⟨"10.0.0.1", 1, 0⟩]
      ("10.0.0.2", 2) ("10.0.0.3", 3) := by
  intro claimed
  have picked := claimed (by decide) (by decide +kernel) (by decide +kernel) (by decide +kernel)
  exact absurd picked (by decide +kernel)

end Churn

end DcCluster.Server
