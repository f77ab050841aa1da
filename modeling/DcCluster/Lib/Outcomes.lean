import Mathlib.Logic.Basic

/-!
Computations that call code outside of the program. Each such call succeeds or not;
the answers are a sequence fixed in advance and unknown to the computation.
`Always` is a postcondition that holds for every sequence, with one rule for each way
to build a computation.
-/

namespace DcCluster.Lib

abbrev Calls := StateM (Nat → Bool)

def succeeds : Calls Bool := fun outcomes => (outcomes 0, fun index => outcomes (index + 1))

variable {α β : Type}

def Always (post : α → Prop) (calls : Calls α) : Prop := ∀ outcomes, post (calls.run outcomes).1

variable {post : β → Prop}

theorem always_pure {value : β} (holds : post value) : Always post (pure value) :=
  fun _ => holds

theorem always_bind {mid : α → Prop} {first : Calls α} {next : α → Calls β}
    (before : Always mid first) (after : ∀ value, mid value → Always post (next value)) :
    Always post (first >>= next) :=
  fun outcomes => after _ (before outcomes) _

theorem always_ask {next : Bool → Calls β} (after : ∀ answer, Always post (next answer)) :
    Always post (succeeds >>= next) :=
  fun outcomes => after (outcomes 0) _

theorem always_ite {condition : Prop} [Decidable condition] {first second : Calls β}
    (positive : condition → Always post first) (negative : ¬ condition → Always post second) :
    Always post (if condition then first else second) := by
  split
  next holds => exact positive holds
  next fails => exact negative fails

/-- A loop over a list that keeps one part of every element and establishes another one. -/
theorem always_mapM {Key : Type} {keyOf : α → Key} {good : α → Prop} {change : α → Calls α}
    {list : List α} (each : ∀ element ∈ list,
      Always (fun new => keyOf new = keyOf element ∧ good new) (change element)) :
    Always (fun news => news.map keyOf = list.map keyOf ∧ ∀ new ∈ news, good new)
      (list.mapM change) := by
  induction list with
  | nil =>
      rw [List.mapM_nil]
      exact always_pure (by simp)
  | cons head rest ih =>
      rw [List.mapM_cons]
      refine always_bind (each head (by simp)) fun changed ⟨sameHead, goodHead⟩ => ?_
      have eachRest := ih fun element member => each element (by simp [member])
      refine always_bind eachRest fun others ⟨sameRest, goodRest⟩ => ?_
      refine always_pure ⟨by simp [sameHead, sameRest], ?_⟩
      intro new member
      rcases List.mem_cons.mp member with rfl | member
      · exact goodHead
      · exact goodRest new member

/-! Which answers a computation asks for. -/

/-- The answers that are left when this many have been given. -/
def after (asked : Nat) (outcomes : Nat → Bool) : Nat → Bool := fun index => outcomes (index + asked)

theorem after_after (asked more : Nat) (outcomes : Nat → Bool) :
    after more (after asked outcomes) = after (asked + more) outcomes := by
  funext index
  simp only [after]
  congr 1
  omega

theorem run_succeeds (outcomes : Nat → Bool) :
    succeeds.run outcomes = (outcomes 0, after 1 outcomes) := rfl

theorem run_pure (value : α) (outcomes : Nat → Bool) :
    (pure value : Calls α).run outcomes = (value, outcomes) := rfl

theorem run_bind (first : Calls α) (next : α → Calls β) (outcomes : Nat → Bool) :
    (first >>= next).run outcomes =
      (next (first.run outcomes).1).run (first.run outcomes).2 := rfl

theorem run_ask (positive negative : Calls β) (outcomes : Nat → Bool) :
    (succeeds >>= fun answer => if answer = true then positive else negative).run outcomes =
      if outcomes 0 = true then positive.run (after 1 outcomes)
      else negative.run (after 1 outcomes) := by
  rw [run_bind, run_succeeds]
  split <;> rfl

/-- Where every round of a loop ends well exactly with answers of one kind, and asks for
equally many of them then, the loop ends well exactly if each round got such answers. -/
theorem forall_mapM_iff (good : β → Prop) {ok : (Nat → Bool) → Prop} {width : Nat}
    (change : α → Calls β) {list : List α}
    (each : ∀ element ∈ list, ∀ outcomes,
      (good ((change element).run outcomes).1 ↔ ok outcomes) ∧
        (ok outcomes → ((change element).run outcomes).2 = after width outcomes))
    (outcomes : Nat → Bool) :
    ((∀ new ∈ ((list.mapM change).run outcomes).1, good new) ↔
        ∀ index < list.length, ok (after (width * index) outcomes)) ∧
      ((∀ index < list.length, ok (after (width * index) outcomes)) →
        ((list.mapM change).run outcomes).2 = after (width * list.length) outcomes) := by
  induction list generalizing outcomes with
  | nil =>
      refine ⟨iff_of_true (fun new member => ?_) (by simp), fun _ => rfl⟩
      exact absurd member List.not_mem_nil
  | cons head rest ih =>
      obtain ⟨headGood, headAsks⟩ := each head (by simp) outcomes
      have later := ih (fun element member => each element (by simp [member]))
        ((change head).run outcomes).2
      have split : (∀ index < (head :: rest).length, ok (after (width * index) outcomes)) ↔
          ok outcomes ∧ ∀ index < rest.length, ok (after (width * index) (after width outcomes)) := by
        simp only [after_after]
        constructor
        · intro all
          refine ⟨all 0 (by simp), fun index inside => ?_⟩
          have next := all (index + 1) (by simpa using inside)
          rwa [Nat.mul_succ, Nat.add_comm] at next
        · rintro ⟨first, others⟩ index inside
          cases index with
          | zero => exact first
          | succ index =>
              rw [Nat.mul_succ, Nat.add_comm]
              exact others index (by simpa using inside)
      rw [split, List.mapM_cons]
      simp only [run_bind]
      constructor
      · constructor
        · intro all
          have first := headGood.mp (all _ List.mem_cons_self)
          rw [headAsks first] at later
          refine ⟨first, later.1.mp fun new member => all new ?_⟩
          rw [headAsks first]
          exact List.mem_cons_of_mem _ member
        · rintro ⟨first, others⟩ new member
          rw [headAsks first] at later member
          rcases List.mem_cons.mp member with rfl | member
          · exact headGood.mpr first
          · exact later.1.mpr others new member
      · rintro ⟨first, others⟩
        rw [headAsks first] at later ⊢
        refine (later.2 others).trans ?_
        rw [after_after, List.length_cons, Nat.mul_succ, Nat.add_comm]

end DcCluster.Lib
