import Mathlib.Data.List.Rotate

/-!
A queue that serves its head and sends it to the back. A number of turns that is a
multiple of its length serves every element equally often, and an element that
waits before another one is served before it, also while other elements come and go.
-/

namespace DcCluster.Lib

open scoped List

variable {α : Type*}

def served : List α → Nat → List α
  | _, 0 => []
  | [], _ + 1 => []
  | head :: rest, turns + 1 => head :: served (rest ++ [head]) turns

theorem served_add (queue : List α) (first second : Nat) :
    served queue (first + second) = served queue first ++ served (queue.rotate first) second := by
  induction first generalizing queue with
  | zero => simp [served]
  | succ turns ih =>
      rw [Nat.succ_add_eq_add_succ, Nat.add_succ]
      cases queue with
      | nil => cases second <;> simp [served]
      | cons head rest => simp [served, ih (rest ++ [head])]

theorem served_front (front back : List α) : served (front ++ back) front.length = front := by
  induction front generalizing back with
  | nil => rfl
  | cons head rest ih => simp [served, ih (back ++ [head])]

theorem served_rounds (queue : List α) (rounds : Nat) :
    served queue (rounds * queue.length) = (List.replicate rounds queue).flatten := by
  induction rounds with
  | zero => simp [served]
  | succ rounds ih =>
      have first : served queue queue.length = queue := by
        have whole := served_front queue []
        rwa [List.append_nil] at whole
      rw [Nat.succ_mul, Nat.add_comm, served_add, first, List.rotate_length, ih,
        List.replicate_succ, List.flatten_cons]

theorem count_served_rounds [BEq α] [LawfulBEq α] {queue : List α} {element : α}
    (distinct : queue.Nodup) (member : element ∈ queue) (rounds : Nat) :
    (served queue (rounds * queue.length)).count element = rounds := by
  rw [served_rounds, List.count_flatten, List.map_replicate, List.sum_replicate_nat,
    List.count_eq_one_of_mem distinct member, Nat.mul_one]

theorem waits_behind {earlier later : α} {rest : List α} (member : earlier ∈ rest) :
    [earlier, later] <+ rest ++ [later] :=
  (List.singleton_sublist.mpr member).append (List.Sublist.refl [later])

/-- The turn of the later one has not come, and a turn of a third element keeps the order. -/
theorem waits_after_turn {earlier later head : α} {rest : List α}
    (distinct : (head :: rest).Nodup) (waits : [earlier, later] <+ head :: rest)
    (other : head ≠ earlier) :
    head ≠ later ∧ [earlier, later] <+ rest ++ [head] := by
  have behind : [earlier, later] <+ rest := by
    rcases List.sublist_cons_iff.mp waits with behind | ⟨tail, same, _⟩
    · exact behind
    · simp only [List.cons.injEq] at same
      exact absurd same.1.symm other
  constructor
  · rintro rfl
    exact (List.nodup_cons.mp distinct).1 (behind.subset (by simp))
  · exact behind.trans (List.sublist_append_left rest [head])

/-- Elements that leave, in any part of the queue, and newcomers between the two parts
keep the order of the ones that stay. -/
theorem waits_after_churn {earlier later : α} {front back : List α}
    (keep : α → Bool) (fresh : List α) (waits : [earlier, later] <+ front ++ back)
    (keepEarlier : keep earlier = true) (keepLater : keep later = true) :
    [earlier, later] <+ front.filter keep ++ fresh ++ back.filter keep := by
  have kept := waits.filter keep
  simp only [List.filter_cons, keepEarlier, keepLater, ↓reduceIte, List.filter_nil,
    List.filter_append] at kept
  refine kept.trans (List.Sublist.append ?_ (List.Sublist.refl _))
  exact List.sublist_append_left _ fresh

end DcCluster.Lib
