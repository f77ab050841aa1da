import DcCluster.Server.RegistryCore

/-!
The node registry is a finite map from `(ip, port)` to the last stamp. The map
and its five operations are stated on their own; every block of the server
simulates its operation as long as no two entries of the vector share a key,
which every block preserves.
-/

namespace DcCluster.Server

open DcCluster.Lib

def NodeMap := NodeKey → Option Int

namespace NodeMap

def empty : NodeMap := fun _ => none

def recent (lCheckTime stamp : Int) : Bool := lCheckTime - stamp ≤ 60000

def apply (table : NodeMap) : Op → NodeMap
  | .registerWork clientInfo clock => Function.update table clientInfo.key (some clock)
  | .heartBeatWork heartBeatInfo clock =>
      if (table heartBeatInfo.key).isSome then
        Function.update table heartBeatInfo.key (some clock)
      else table
  | .sweep lCheckTime => fun key => (table key).filter (recent lCheckTime)
  | .pick => table
  | .failureRemoval node => Function.update table node.key none

theorem apply_registerWork (table : NodeMap) (clientInfo : ClientInfo) (clock : Int)
    (key : NodeKey) :
    table.apply (.registerWork clientInfo clock) key =
      if key = clientInfo.key then some clock else table key :=
  Function.update_apply table clientInfo.key (some clock) key

theorem apply_heartBeatWork (table : NodeMap) (heartBeatInfo : HeartBeatInfo) (clock : Int)
    (key : NodeKey) :
    table.apply (.heartBeatWork heartBeatInfo clock) key =
      if key = heartBeatInfo.key ∧ (table key).isSome then some clock else table key := by
  by_cases present : (table heartBeatInfo.key).isSome = true
  · have stamps : table.apply (.heartBeatWork heartBeatInfo clock) =
        Function.update table heartBeatInfo.key (some clock) := if_pos present
    rw [stamps]
    refine (Function.update_apply table heartBeatInfo.key (some clock) key).trans ?_
    by_cases same : key = heartBeatInfo.key
    · simp [same, present]
    · simp [same]
  · have ignores : table.apply (.heartBeatWork heartBeatInfo clock) = table := if_neg present
    rw [ignores]
    by_cases same : key = heartBeatInfo.key
    · simp [same, present]
    · simp [same]

theorem apply_failureRemoval (table : NodeMap) (node : DcNode) (key : NodeKey) :
    table.apply (.failureRemoval node) key = if key = node.key then none else table key :=
  Function.update_apply table node.key none key

def Answers (table : NodeMap) : Op → Outcome → Prop
  | .registerWork _ _, outcome => outcome = .registered .success
  | .heartBeatWork heartBeatInfo _, outcome => outcome = .beat (table heartBeatInfo.key).isSome
  | .sweep _, outcome => outcome = .done
  | .pick, outcome => outcome = .picked .noNode ∨
      ∃ node, outcome = .picked (.node node) ∧ table node.key = some node.lHeartBeatTime
  | .failureRemoval _, outcome => outcome = .done

end NodeMap

def Registry.table (registry : Registry) : NodeMap :=
  lookup DcNode.key DcNode.lHeartBeatTime registry.nodeVec

def Registry.keys (registry : Registry) : List NodeKey := registry.nodeVec.map DcNode.key

theorem Registry.keys_length (registry : Registry) :
    registry.keys.length = registry.nodeVec.length :=
  List.length_map _

theorem Registry.mem_keys_iff {registry : Registry} {key : NodeKey} :
    key ∈ registry.keys ↔ registry.table key ≠ none :=
  (not_congr lookup_eq_none_iff).trans Decidable.not_not |>.symm

structure Registry.Valid (registry : Registry) : Prop where
  distinct : (registry.nodeVec.map DcNode.key).Nodup
  cursor : 0 ≤ registry.pickNum

theorem Registry.empty_valid : Registry.empty.Valid := ⟨by simp [Registry.empty], by decide⟩

@[simp] theorem DcNode.stamp_key (clock : Int) (node : DcNode) : (node.stamp clock).key = node.key :=
  rfl

theorem stampFirst_keys (nodeVec : List DcNode) (key : NodeKey) (clock : Int) :
    (stampFirst nodeVec key clock).1.map DcNode.key = nodeVec.map DcNode.key :=
  map_key_modifyFirst (DcNode.stamp_key clock) nodeVec

theorem stampFirst_found (registry : Registry) (key : NodeKey) (clock : Int) :
    (stampFirst registry.nodeVec key clock).2 = (registry.table key).isSome :=
  modifyFirst_found registry.nodeVec

theorem stampFirst_table {registry : Registry} {key : NodeKey} {clock : Int}
    (present : (registry.table key).isSome = true) :
    lookup DcNode.key DcNode.lHeartBeatTime (stampFirst registry.nodeVec key clock).1 =
      Function.update registry.table key (some clock) :=
  lookup_modifyFirst (DcNode.stamp_key clock) (fun _ => rfl) present

theorem stampFirst_of_absent {registry : Registry} {key : NodeKey} {clock : Int}
    (absent : registry.table key = none) :
    (stampFirst registry.nodeVec key clock).1 = registry.nodeVec :=
  modifyFirst_of_absent absent

section RegisterWork

variable (registry : Registry) (clientInfo : ClientInfo) (clock : Int)

theorem registerWork_of_present (present : (registry.table clientInfo.key).isSome = true) :
    registerWork registry clientInfo clock =
      ({ registry with nodeVec := (stampFirst registry.nodeVec clientInfo.key clock).1 },
        .success) := by
  simp only [registerWork, stampFirst_found, present, ↓reduceIte]

theorem registerWork_of_absent (absent : registry.table clientInfo.key = none) :
    registerWork registry clientInfo clock =
      ({ registry with nodeVec := registry.nodeVec ++ [⟨clientInfo.Ip, clientInfo.Port, clock⟩] },
        .success) := by
  simp [registerWork, stampFirst_found, stampFirst_of_absent absent, absent]

theorem registerWork_table :
    (registerWork registry clientInfo clock).1.table =
      Function.update registry.table clientInfo.key (some clock) := by
  cases absent : registry.table clientInfo.key with
  | none =>
      rw [registerWork_of_absent registry clientInfo clock absent]
      exact lookup_append_fresh absent
  | some _ =>
      have present : (registry.table clientInfo.key).isSome = true := by simp [absent]
      rw [registerWork_of_present registry clientInfo clock present]
      exact stampFirst_table present

theorem registerWork_result : (registerWork registry clientInfo clock).2 = .success := by
  simp only [registerWork]
  split <;> rfl

theorem registerWork_valid (valid : registry.Valid) :
    (registerWork registry clientInfo clock).1.Valid := by
  cases absent : registry.table clientInfo.key with
  | none =>
      rw [registerWork_of_absent registry clientInfo clock absent]
      exact ⟨nodup_append_fresh valid.distinct (lookup_eq_none_iff.mp absent), valid.cursor⟩
  | some _ =>
      rw [registerWork_of_present registry clientInfo clock (by simp [absent])]
      refine ⟨?_, valid.cursor⟩
      rw [stampFirst_keys]
      exact valid.distinct

end RegisterWork

section HeartBeatWork

variable (registry : Registry) (heartBeatInfo : HeartBeatInfo) (clock : Int)

theorem heartBeatWork_table :
    (heartBeatWork registry heartBeatInfo clock).1.table =
      registry.table.apply (.heartBeatWork heartBeatInfo clock) := by
  cases absent : registry.table heartBeatInfo.key with
  | none =>
      simp only [NodeMap.apply, absent, Option.isSome_none, Bool.false_eq_true, ↓reduceIte]
      simp only [heartBeatWork, Registry.table, stampFirst_of_absent absent]
      rfl
  | some _ =>
      simp only [NodeMap.apply, absent, Option.isSome_some, ↓reduceIte]
      exact stampFirst_table (by simp [absent])

theorem heartBeatWork_result :
    (heartBeatWork registry heartBeatInfo clock).2 = (registry.table heartBeatInfo.key).isSome :=
  stampFirst_found registry heartBeatInfo.key clock

theorem heartBeatWork_valid (valid : registry.Valid) :
    (heartBeatWork registry heartBeatInfo clock).1.Valid := by
  refine ⟨?_, valid.cursor⟩
  simp only [heartBeatWork, stampFirst_keys]
  exact valid.distinct

end HeartBeatWork

theorem sweepFrom_eq_filter (lCheckTime : Int) (nodeVec : List DcNode) :
    sweepFrom lCheckTime nodeVec =
      nodeVec.filter fun node => NodeMap.recent lCheckTime node.lHeartBeatTime := by
  induction nodeVec with
  | nil => rfl
  | cons node rest ih =>
      by_cases expired : lCheckTime - node.lHeartBeatTime > 60 * 1000
      · have stale : NodeMap.recent lCheckTime node.lHeartBeatTime = false := by
          simp only [NodeMap.recent, decide_eq_false_iff_not]
          omega
        simp only [sweepFrom, if_pos expired, ih, List.filter_cons, stale, Bool.false_eq_true,
          ↓reduceIte]
      · have fresh : NodeMap.recent lCheckTime node.lHeartBeatTime = true := by
          simp only [NodeMap.recent, decide_eq_true_eq]
          omega
        simp only [sweepFrom, if_neg expired, ih, List.filter_cons, fresh, ↓reduceIte]

theorem sweep_table {registry : Registry} (valid : registry.Valid) (lCheckTime : Int) :
    (sweep registry lCheckTime).table = registry.table.apply (.sweep lCheckTime) := by
  funext key
  simp only [sweep, Registry.table, NodeMap.apply, sweepFrom_eq_filter]
  exact lookup_filter valid.distinct (NodeMap.recent lCheckTime) key

theorem sweep_valid {registry : Registry} (valid : registry.Valid) (lCheckTime : Int) :
    (sweep registry lCheckTime).Valid := by
  refine ⟨?_, valid.cursor⟩
  simp only [sweep, sweepFrom_eq_filter]
  exact (List.filter_sublist.map _).nodup valid.distinct

theorem pick_nodeVec (registry : Registry) : (pick registry).1.nodeVec = registry.nodeVec := by
  simp only [pick]
  split
  · split <;> rfl
  · rfl

theorem pick_of_positive {registry : Registry} (valid : registry.Valid)
    (positive : 0 < nodeSize registry.nodeVec) :
    ∃ node ∈ registry.nodeVec, (pick registry).2 = .node node := by
  have lower := Int.tmod_nonneg (nodeSize registry.nodeVec) valid.cursor
  have upper := Int.tmod_lt_of_pos registry.pickNum positive
  have size : nodeSize registry.nodeVec ≤ registry.nodeVec.length :=
    toInt_le_of_pos positive
  have bound : (registry.pickNum.tmod (nodeSize registry.nodeVec)).toNat <
      registry.nodeVec.length := by omega
  refine ⟨_, List.getElem_mem bound, ?_⟩
  simp only [pick, if_pos positive, List.getElem?_eq_getElem bound, if_pos lower]

theorem pick_of_nonpositive {registry : Registry} (nonpositive : ¬ 0 < nodeSize registry.nodeVec) :
    pick registry = (registry, .noNode) := by
  simp only [pick, gt_iff_lt, if_neg nonpositive]

theorem pick_valid {registry : Registry} (valid : registry.Valid) : (pick registry).1.Valid := by
  refine ⟨by rw [pick_nodeVec]; exact valid.distinct, ?_⟩
  have cursor := valid.cursor
  have lower := Int.tmod_nonneg (nodeSize registry.nodeVec) cursor
  simp only [pick]
  split
  · split <;> (simp only; omega)
  · exact cursor

theorem pick_answers {registry : Registry} (valid : registry.Valid) :
    registry.table.Answers .pick (.picked (pick registry).2) := by
  by_cases positive : 0 < nodeSize registry.nodeVec
  · obtain ⟨node, member, picked⟩ := pick_of_positive valid positive
    exact .inr ⟨node, by rw [picked], lookup_of_mem valid.distinct member⟩
  · exact .inl (by rw [pick_of_nonpositive positive])

theorem failureRemoval_valid {registry : Registry} (valid : registry.Valid) (node : DcNode) :
    (failureRemoval registry node).Valid :=
  ⟨(List.eraseP_sublist.map _).nodup valid.distinct, valid.cursor⟩

theorem perform_valid {registry : Registry} (valid : registry.Valid) (op : Op) :
    (perform registry op).1.Valid := by
  cases op with
  | registerWork clientInfo clock => exact registerWork_valid registry clientInfo clock valid
  | heartBeatWork heartBeatInfo clock => exact heartBeatWork_valid registry heartBeatInfo clock valid
  | sweep lCheckTime => exact sweep_valid valid lCheckTime
  | pick => exact pick_valid valid
  | failureRemoval node => exact failureRemoval_valid valid node

theorem performAll_valid {registry : Registry} (valid : registry.Valid) (ops : List Op) :
    (performAll registry ops).Valid := by
  induction ops generalizing registry with
  | nil => exact valid
  | cons op rest ih => exact ih (perform_valid valid op)

theorem perform_table {registry : Registry} (valid : registry.Valid) (op : Op) :
    (perform registry op).1.table = registry.table.apply op := by
  cases op with
  | registerWork clientInfo clock => exact registerWork_table registry clientInfo clock
  | heartBeatWork heartBeatInfo clock => exact heartBeatWork_table registry heartBeatInfo clock
  | sweep lCheckTime => exact sweep_table valid lCheckTime
  | pick => exact congrArg (lookup DcNode.key DcNode.lHeartBeatTime) (pick_nodeVec registry)
  | failureRemoval node => exact lookup_eraseP valid.distinct node.key

theorem perform_answers {registry : Registry} (valid : registry.Valid) (op : Op) :
    registry.table.Answers op (perform registry op).2 := by
  cases op with
  | registerWork clientInfo clock =>
      exact congrArg Outcome.registered (registerWork_result registry clientInfo clock)
  | heartBeatWork heartBeatInfo clock =>
      exact congrArg Outcome.beat (heartBeatWork_result registry heartBeatInfo clock)
  | sweep _ => rfl
  | pick => exact pick_answers valid
  | failureRemoval _ => rfl

theorem performAll_table {registry : Registry} (valid : registry.Valid) (ops : List Op) :
    (performAll registry ops).table = ops.foldl NodeMap.apply registry.table := by
  induction ops generalizing registry with
  | nil => rfl
  | cons op rest ih =>
      rw [List.foldl_cons, ← perform_table valid op]
      exact ih (perform_valid valid op)

/-- After any interleaving of the blocks the keys are distinct, the vector is the
map built by the same operations, and every next block simulates its operation. -/
theorem registry_refines_map (ops : List Op) :
    let registry := performAll Registry.empty ops
    (registry.nodeVec.map DcNode.key).Nodup ∧
      registry.table = ops.foldl NodeMap.apply NodeMap.empty ∧
      (∀ op, (perform registry op).1.table = registry.table.apply op ∧
        registry.table.Answers op (perform registry op).2) ∧
      (∀ lCheckTime, (perform registry (.sweep lCheckTime)).1.nodeVec =
        registry.nodeVec.filter fun node => lCheckTime - node.lHeartBeatTime ≤ 60000) ∧
      (perform registry .pick).1.nodeVec = registry.nodeVec ∧
      ((perform registry .pick).2 = .picked .noNode →
        registry.nodeVec = [] ∨ 2147483648 ≤ registry.nodeVec.length) := by
  intro registry
  have valid : registry.Valid := performAll_valid Registry.empty_valid ops
  refine ⟨valid.distinct, ?_, ?_, ?_, pick_nodeVec registry, ?_⟩
  · exact performAll_table Registry.empty_valid ops
  · intro op
    exact ⟨perform_table valid op, perform_answers valid op⟩
  · intro lCheckTime
    exact sweepFrom_eq_filter lCheckTime registry.nodeVec
  · intro noNode
    by_contra otherwise
    obtain ⟨nonempty, small⟩ := not_or.mp otherwise
    have positive : 0 < nodeSize registry.nodeVec := by
      have nonzero := List.length_pos_of_ne_nil nonempty
      rw [nodeSize, toInt_of_fits (by simp only [intMax]; omega)]
      omega
    obtain ⟨node, _, picked⟩ := pick_of_positive valid positive
    simp [perform, picked] at noNode

end DcCluster.Server
