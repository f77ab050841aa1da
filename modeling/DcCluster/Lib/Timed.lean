import DcCluster.Lib.Transition

/-!
Runs with a clock. Time passes in delays only; every other action happens at one
instant, which its step may read. How long a state may last is a condition on the
delays, so a bound on the time a process takes is a bound on what may last.
-/

namespace DcCluster.Lib

variable {State Action : Type*}

structure Timed (State : Type*) where
  now : Int
  state : State

inductive TimedAction (Action : Type*)
  | delay (elapsed : Nat)
  | act (action : Action)

def timedStep (step : Int → State → Action → Option State) (timed : Timed State) :
    TimedAction Action → Option (Timed State)
  | .delay elapsed => some { timed with now := timed.now + elapsed }
  | .act action => (step timed.now timed.state action).map fun next => { timed with state := next }

def timely (lasts : Int → State → Prop) (permitted : State → Action → Prop)
    (timed : Timed State) : TimedAction Action → Prop
  | .delay elapsed => lasts (timed.now + elapsed) timed.state
  | .act action => permitted timed.state action

instance anyAction.decidable (state : State) (action : Action) :
    Decidable (anyAction state action) :=
  isTrue trivial

instance timely.decidable (lasts : Int → State → Prop) (permitted : State → Action → Prop)
    [∀ now state, Decidable (lasts now state)] [∀ state action, Decidable (permitted state action)] :
    ∀ timed action, Decidable (timely lasts permitted timed action)
  | timed, .delay elapsed => inferInstanceAs (Decidable (lasts (timed.now + elapsed) timed.state))
  | timed, .act action => inferInstanceAs (Decidable (permitted timed.state action))

section Rules

variable {step : Int → State → Action → Option State} {lasts : Int → State → Prop}
  {permitted : State → Action → Prop} {start : Timed State → Prop}

theorem Timed.invariant (Inv : Int → State → Prop)
    (initial : ∀ timed, start timed → Inv timed.now timed.state)
    (passes : ∀ now later state, Inv now state → now ≤ later → lasts later state → Inv later state)
    (acts : ∀ now state action next, Inv now state → permitted state action →
      step now state action = some next → Inv now next)
    {timed : Timed State}
    (reached : Reachable (timedStep step) start (timely lasts permitted) timed) :
    Inv timed.now timed.state := by
  refine Reachable.invariant (fun timed => Inv timed.now timed.state) initial ?_ reached
  intro timed action next _ holds allowed taken
  cases action with
  | delay elapsed =>
      cases taken
      exact passes timed.now (timed.now + elapsed) _ holds (by omega) allowed
  | act action =>
      obtain ⟨moved, acted, rfl⟩ := Option.map_eq_some_iff.mp taken
      exact acts _ _ _ _ holds allowed acted

/-- Where a state that misses the goal may not last beyond its rank, and no action raises the
rank before the goal holds, the goal holds at every instant after the rank of the start. -/
theorem Timed.settles (Inv : Int → State → Prop) (Goal : State → Prop) (rank : State → Int)
    {limit : Int}
    (initial : ∀ timed, start timed → Inv timed.now timed.state ∧ rank timed.state ≤ limit)
    (passes : ∀ now later state, Inv now state → now ≤ later → lasts later state → Inv later state)
    (acts : ∀ now state action next, Inv now state → permitted state action →
      step now state action = some next → Inv now next)
    (keeps : ∀ now state action next, Inv now state → permitted state action →
      step now state action = some next → Goal state → Goal next)
    (lowers : ∀ now state action next, Inv now state → permitted state action →
      step now state action = some next → Goal next ∨ rank next ≤ rank state)
    (urgent : ∀ now state, Inv now state → Goal state ∨ now ≤ rank state)
    {timed : Timed State}
    (reached : Reachable (timedStep step) start (timely lasts permitted) timed)
    (late : limit < timed.now) : Goal timed.state := by
  have settled : Inv timed.now timed.state ∧ (Goal timed.state ∨ rank timed.state ≤ limit) := by
    refine Timed.invariant (fun now state => Inv now state ∧ (Goal state ∨ rank state ≤ limit))
      ?_ ?_ ?_ reached
    · intro first isStart
      exact ⟨(initial first isStart).1, .inr (initial first isStart).2⟩
    · intro now later state holds passed lasting
      exact ⟨passes now later state holds.1 passed lasting, holds.2⟩
    · intro now state action next holds allowed taken
      refine ⟨acts now state action next holds.1 allowed taken, ?_⟩
      rcases holds.2 with reachedGoal | bounded
      · exact .inl (keeps now state action next holds.1 allowed taken reachedGoal)
      · rcases lowers now state action next holds.1 allowed taken with goal | lower
        · exact .inl goal
        · exact .inr (by omega)
  rcases settled.2 with goal | bounded
  · exact goal
  · rcases urgent _ _ settled.1 with goal | inTime
    · exact goal
    · omega

end Rules

end DcCluster.Lib
