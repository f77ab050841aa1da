import Mathlib.Data.List.Induction
import DcCluster.Lib.History
import DcCluster.Server.Registry

/-!
When a node is registered, told from the history of the registry alone: it was
registered by `RegisterWork` and nothing removed it since. A sweep removes it only
if the stamp that was accepted last is too old; the sweep's own clock may be older.
-/

namespace DcCluster.Server

open DcCluster.Lib

/-- The clock value of a `RegisterWork`, or of a `HeartBeatWork` that succeeds. -/
def acceptedStamp (registry : Registry) (key : NodeKey) : Op → Option Int
  | .registerWork clientInfo clock => if key = clientInfo.key then some clock else none
  | .heartBeatWork heartBeatInfo clock =>
      if key = heartBeatInfo.key ∧ (heartBeatWork registry heartBeatInfo clock).2 = true then
        some clock
      else none
  | _ => none

def latestStamp (key : NodeKey) : Registry → List Op → Option Int
  | _, [] => none
  | registry, op :: rest =>
      (latestStamp key (perform registry op).1 rest).or (acceptedStamp registry key op)

def registers (key : NodeKey) (_ : List Op) : Op → Prop
  | .registerWork clientInfo _ => key = clientInfo.key
  | _ => False

/-- A failure removal of the node, or a sweep that reads a clock more than 60000 after
the stamp accepted last. -/
def removes (key : NodeKey) (before : List Op) : Op → Prop
  | .failureRemoval node => key = node.key
  | .sweep lCheckTime => ∃ stamp, latestStamp key Registry.empty before = some stamp ∧
      lCheckTime - stamp > 60000
  | _ => False

theorem performAll_append_singleton (registry : Registry) (ops : List Op) (op : Op) :
    performAll registry (ops ++ [op]) = (perform (performAll registry ops) op).1 := by
  rw [performAll, List.foldl_append]
  rfl

theorem latestStamp_append_singleton (key : NodeKey) (registry : Registry) (ops : List Op)
    (op : Op) :
    latestStamp key registry (ops ++ [op]) =
      (acceptedStamp (performAll registry ops) key op).or (latestStamp key registry ops) := by
  induction ops generalizing registry with
  | nil => simp [latestStamp, performAll]
  | cons first rest ih =>
      simp only [List.cons_append, latestStamp, ih, Option.or_assoc]
      rfl

section Step

variable {registry : Registry} {op : Op} {key : NodeKey}

theorem table_of_accepted (valid : registry.Valid) {clock : Int}
    (accepted : acceptedStamp registry key op = some clock) :
    (perform registry op).1.table key = some clock := by
  rw [perform_table valid op]
  cases op with
  | registerWork clientInfo clock =>
      rw [NodeMap.apply_registerWork]
      exact (Option.ite_none_right_eq_some.mp accepted).elim fun same stamped => by simp [same, stamped]
  | heartBeatWork heartBeatInfo clock =>
      rw [acceptedStamp, heartBeatWork_result] at accepted
      obtain ⟨⟨same, present⟩, stamped⟩ := Option.ite_none_right_eq_some.mp accepted
      subst key
      rw [NodeMap.apply_heartBeatWork, if_pos ⟨rfl, present⟩]
      exact stamped
  | _ => cases accepted

theorem table_of_unaccepted (valid : registry.Valid)
    (unaccepted : acceptedStamp registry key op = none) :
    (perform registry op).1.table key = registry.table key ∨
      (perform registry op).1.table key = none := by
  rw [perform_table valid op]
  cases op with
  | registerWork clientInfo clock =>
      have other : key ≠ clientInfo.key := by simpa [acceptedStamp] using unaccepted
      left
      rw [NodeMap.apply_registerWork, if_neg other]
  | heartBeatWork heartBeatInfo clock =>
      left
      rw [NodeMap.apply_heartBeatWork]
      refine if_neg ?_
      rintro ⟨rfl, present⟩
      simp [acceptedStamp, heartBeatWork_result, present] at unaccepted
  | sweep lCheckTime =>
      cases stamped : registry.table key with
      | none => simp [NodeMap.apply, stamped]
      | some stamp =>
          by_cases recent : NodeMap.recent lCheckTime stamp = true <;>
            simp [NodeMap.apply, stamped, recent]
  | pick => exact .inl rfl
  | failureRemoval node =>
      rw [NodeMap.apply_failureRemoval]
      split
      · exact .inr rfl
      · exact .inl rfl

theorem registered_of_absent (valid : registry.Valid) (before : List Op)
    (absent : registry.table key = none) :
    (perform registry op).1.table key ≠ none ↔ registers key before op := by
  rw [perform_table valid op]
  cases op with
  | registerWork clientInfo clock => simp [NodeMap.apply_registerWork, registers, absent]
  | heartBeatWork heartBeatInfo clock => simp [NodeMap.apply_heartBeatWork, registers, absent]
  | sweep lCheckTime => simp [NodeMap.apply, registers, absent]
  | pick => simp [NodeMap.apply, registers, absent]
  | failureRemoval node => simp [NodeMap.apply_failureRemoval, registers, absent]

theorem registered_of_present (valid : registry.Valid) {before : List Op} {stamp : Int}
    (present : registry.table key = some stamp)
    (latest : latestStamp key Registry.empty before = some stamp) :
    (perform registry op).1.table key ≠ none ↔ ¬ removes key before op := by
  rw [perform_table valid op]
  cases op with
  | registerWork clientInfo clock =>
      rw [NodeMap.apply_registerWork, present]
      split <;> simp [removes]
  | heartBeatWork heartBeatInfo clock =>
      rw [NodeMap.apply_heartBeatWork, present]
      split <;> simp [removes]
  | sweep lCheckTime =>
      simp only [NodeMap.apply, removes, present, latest, NodeMap.recent, Option.filter_some,
        decide_eq_true_eq]
      split
      next recent => simpa using recent
      next expired => simpa using expired
  | pick => simp [NodeMap.apply, removes, present]
  | failureRemoval node => simp [NodeMap.apply_failureRemoval, removes, present]

end Step

/-- The stamp of a registered node is the one accepted last. -/
theorem latestStamp_of_registered (ops : List Op) {key : NodeKey} {stamp : Int}
    (registered : (performAll Registry.empty ops).table key = some stamp) :
    latestStamp key Registry.empty ops = some stamp := by
  induction ops using List.reverseRecOn with
  | nil => simp [performAll, Registry.empty, Registry.table] at registered
  | append_singleton before op ih =>
      have valid := performAll_valid Registry.empty_valid before
      rw [performAll_append_singleton] at registered
      rw [latestStamp_append_singleton]
      cases accepted : acceptedStamp (performAll Registry.empty before) key op with
      | some clock =>
          rw [table_of_accepted valid accepted] at registered
          simpa using registered
      | none =>
          rcases table_of_unaccepted valid accepted with same | removed
          · rw [same] at registered
            simpa using ih registered
          · rw [removed] at registered
            cases registered

theorem registered_iff_since (ops : List Op) (key : NodeKey) :
    (performAll Registry.empty ops).table key ≠ none ↔ Since (registers key) (removes key) ops := by
  induction ops using List.reverseRecOn with
  | nil =>
      have absent : (performAll Registry.empty []).table key = none := rfl
      simp [absent, not_since_nil]
  | append_singleton before op ih =>
      have valid := performAll_valid Registry.empty_valid before
      rw [performAll_append_singleton, since_append_singleton, ← ih]
      cases stamped : (performAll Registry.empty before).table key with
      | none =>
          rw [registered_of_absent valid before stamped]
          simp
      | some stamp =>
          have latest := latestStamp_of_registered before stamped
          rw [registered_of_present valid stamped latest]
          constructor
          · intro survives
            exact .inr ⟨by simp, survives⟩
          · rintro (again | ⟨_, survives⟩)
            · cases op <;> simp_all [registers, removes]
            · exact survives

/-- In every run: a node is registered iff a `RegisterWork` put it there and nothing removed
it since, only `RegisterWork` brings a node back, a pick returns only such nodes, and a sweep
spares a node whose latest accepted stamp is recent. -/
theorem membership_history (ops : List Op) (key : NodeKey) :
    let registry := performAll Registry.empty ops
    (key ∈ registry.keys ↔ Since (registers key) (removes key) ops) ∧
      (key ∉ registry.keys →
        (∀ heartBeatInfo clock,
          key ∉ (perform registry (.heartBeatWork heartBeatInfo clock)).1.keys) ∧
        key ∉ (perform registry .pick).1.keys) ∧
      (∀ node, (perform registry .pick).2 = .picked (.node node) →
        Since (registers node.key) (removes node.key) ops) ∧
      (∀ lCheckTime stamp, key ∈ registry.keys →
        latestStamp key Registry.empty ops = some stamp → lCheckTime - stamp ≤ 60000 →
        key ∈ (perform registry (.sweep lCheckTime)).1.keys) := by
  intro registry
  have valid : registry.Valid := performAll_valid Registry.empty_valid ops
  simp only [Registry.mem_keys_iff, not_not]
  refine ⟨registered_iff_since ops key, ?_, ?_, ?_⟩
  · intro absent
    have stays (op : Op) : ¬ registers key ops op → (perform registry op).1.table key = none := by
      intro other
      exact not_not.mp (mt (registered_of_absent valid ops absent).mp other)
    exact ⟨fun heartBeatInfo clock => stays _ id, stays _ id⟩
  · intro node picked
    rw [← registered_iff_since]
    have answers := perform_answers valid .pick
    rw [picked] at answers
    rcases answers with none | ⟨found, same, stamped⟩
    · cases none
    · cases same
      simp [registry, stamped]
  · intro lCheckTime stamp present latest recent
    obtain ⟨found, stamped⟩ := Option.ne_none_iff_exists'.mp present
    have accepted := latestStamp_of_registered ops stamped
    rw [registered_of_present valid stamped accepted]
    rintro ⟨other, sameLatest, expired⟩
    rw [latest] at sameLatest
    cases sameLatest
    omega

end DcCluster.Server
