import Mathlib.Logic.Basic

/-!
Runs of a step function over an arbitrary state and action type. An action that
is not enabled in a state makes the step return `none`; a restricted run only
takes actions that a side condition on the state before the step allows.
-/

namespace DcCluster.Lib

variable {State Action : Type*}

def run (step : State → Action → Option State) : State → List Action → Option State
  | state, [] => some state
  | state, action :: rest => (step state action).bind fun next => run step next rest

theorem run_invariant {step : State → Action → Option State} (Inv : State → Prop)
    (preserved : ∀ state action next, Inv state → step state action = some next → Inv next)
    {state final : State} {actions : List Action} (initially : Inv state)
    (executed : run step state actions = some final) : Inv final := by
  induction actions generalizing state with
  | nil =>
      cases executed
      exact initially
  | cons action rest ih =>
      obtain ⟨next, taken, continued⟩ := Option.bind_eq_some_iff.mp executed
      exact ih (preserved state action next initially taken) continued

inductive Reachable (step : State → Action → Option State) (start : State → Prop)
    (allowed : State → Action → Prop) : State → Prop
  | start {state} : start state → Reachable step start allowed state
  | step {state action next} : Reachable step start allowed state → allowed state action →
      step state action = some next → Reachable step start allowed next

def anyAction (_ : State) (_ : Action) : Prop := True

theorem Reachable.invariant {step : State → Action → Option State} {start : State → Prop}
    {allowed : State → Action → Prop} (Inv : State → Prop)
    (initial : ∀ state, start state → Inv state)
    (preserved : ∀ state action next, Reachable step start allowed state → Inv state →
      allowed state action → step state action = some next → Inv next)
    {state : State} (reached : Reachable step start allowed state) : Inv state := by
  induction reached with
  | start isStart => exact initial _ isStart
  | step before permitted taken ih => exact preserved _ _ _ before ih permitted taken

def Permitted (step : State → Action → Option State) (allowed : State → Action → Prop) :
    State → List Action → Prop
  | _, [] => True
  | state, action :: rest =>
      allowed state action ∧ ∀ next, step state action = some next → Permitted step allowed next rest

instance Permitted.decidable (step : State → Action → Option State)
    (allowed : State → Action → Prop) [∀ state action, Decidable (allowed state action)] :
    ∀ state actions, Decidable (Permitted step allowed state actions)
  | _, [] => isTrue trivial
  | state, action :: rest =>
      match taken : step state action with
      | none => decidable_of_iff (allowed state action) (by simp [Permitted, taken])
      | some next =>
          have := Permitted.decidable step allowed next rest
          decidable_of_iff (allowed state action ∧ Permitted step allowed next rest)
            (by simp [Permitted, taken])

theorem permitted_anyAction (step : State → Action → Option State) (state : State)
    (actions : List Action) : Permitted step anyAction state actions := by
  induction actions generalizing state with
  | nil => trivial
  | cons action rest ih => exact ⟨trivial, fun next _ => ih next⟩

theorem Reachable.append_run {step : State → Action → Option State} {start : State → Prop}
    {allowed : State → Action → Prop} {actions : List Action} {state final : State}
    (reached : Reachable step start allowed state)
    (permitted : Permitted step allowed state actions)
    (executed : run step state actions = some final) : Reachable step start allowed final := by
  induction actions generalizing state with
  | nil =>
      simp only [run, Option.some.injEq] at executed
      subst final
      exact reached
  | cons action rest ih =>
      simp only [run, Option.bind_eq_some_iff] at executed
      obtain ⟨next, taken, continued⟩ := executed
      exact ih (.step reached permitted.1 taken) (permitted.2 next taken) continued

theorem Reachable.of_run {step : State → Action → Option State} {start : State → Prop}
    {allowed : State → Action → Prop} {state : State} (isStart : start state)
    {actions : List Action} (permitted : Permitted step allowed state actions)
    (finishes : (run step state actions).isSome = true) :
    Reachable step start allowed ((run step state actions).get finishes) :=
  .append_run (.start isStart) permitted (Option.some_get finishes).symm

/-- Where some actions leave a shadow of the state alone and the shadow follows all the
others, a run without them is a run of the shadow, unless it escapes the relation. -/
theorem run_filter_shadow {step : State → Action → Option State}
    {allowed : State → Action → Prop} {kept : Action → Bool} (Escaped : State → Prop)
    {Shadow : State → State → Prop}
    (follows : ∀ state shadow action next, Shadow state shadow → kept action = true →
      step state action = some next → ∃ moved, step shadow action = some moved ∧ Shadow next moved)
    (stays : ∀ state shadow action next, allowed state action → Shadow state shadow →
      kept action = false → step state action = some next → Escaped next ∨ Shadow next shadow)
    (escaped : ∀ state action next, allowed state action → Escaped state →
      step state action = some next → Escaped next)
    {state shadow final : State} {actions : List Action} (initially : Shadow state shadow)
    (permitted : Permitted step allowed state actions)
    (executed : run step state actions = some final) :
    Escaped final ∨
      ∃ left, run step shadow (actions.filter kept) = some left ∧ Shadow final left := by
  have away : ∀ actions state, Escaped state → Permitted step allowed state actions →
      run step state actions = some final → Escaped final := by
    intro actions
    induction actions with
    | nil =>
        intro state out _ executed
        cases executed
        exact out
    | cons action rest ih =>
        intro state out permitted executed
        obtain ⟨next, taken, continued⟩ := Option.bind_eq_some_iff.mp executed
        exact ih next (escaped _ _ _ permitted.1 out taken) (permitted.2 next taken) continued
  induction actions generalizing state shadow with
  | nil =>
      cases executed
      exact .inr ⟨shadow, rfl, initially⟩
  | cons action rest ih =>
      obtain ⟨next, taken, continued⟩ := Option.bind_eq_some_iff.mp executed
      have later := permitted.2 next taken
      cases keeps : kept action with
      | true =>
          obtain ⟨moved, copied, related⟩ := follows _ _ _ _ initially keeps taken
          rw [List.filter_cons_of_pos keeps]
          rcases ih related later continued with out | ⟨left, ran, holds⟩
          · exact .inl out
          · exact .inr ⟨left, by simpa only [run, copied, Option.bind_some] using ran, holds⟩
      | false =>
          rw [List.filter_cons_of_neg (by simp [keeps])]
          rcases stays _ _ _ _ permitted.1 initially keeps taken with out | related
          · exact .inl (away rest next out later continued)
          · exact ih related later continued

/-- The property holds in the first state of a run and after each of its actions. -/
def HoldsAlong (step : State → Action → Option State) (holds : State → Prop) :
    State → List Action → Prop
  | state, [] => holds state
  | state, action :: rest =>
      holds state ∧ ∀ next, step state action = some next → HoldsAlong step holds next rest

/-- Where an invariant makes the condition on an action decide whether the property
survives it, the property holds along a run exactly when all its actions meet the condition. -/
theorem holdsAlong_iff_permitted {step : State → Action → Option State} {holds Inv : State → Prop}
    {allowed : State → Action → Prop}
    (preserved : ∀ state action next, Inv state → step state action = some next → Inv next)
    (decides : ∀ state action next, Inv state → holds state → step state action = some next →
      (holds next ↔ allowed state action))
    (blocked : ∀ state action, step state action = none → allowed state action)
    {state : State} (invariant : Inv state) (initially : holds state) (actions : List Action) :
    HoldsAlong step holds state actions ↔ Permitted step allowed state actions := by
  induction actions generalizing state with
  | nil => exact ⟨fun _ => trivial, fun _ => initially⟩
  | cons action rest ih =>
      cases taken : step state action with
      | none =>
          have permitted := blocked state action taken
          simp [HoldsAlong, Permitted, taken, initially, permitted]
      | some next =>
          have later := preserved state action next invariant taken
          have decided := decides state action next invariant initially taken
          simp only [HoldsAlong, Permitted, taken, Option.some.injEq, forall_eq', initially,
            true_and]
          constructor
          · intro along
            have kept : holds next := by
              cases rest with
              | nil => exact along
              | cons _ _ => exact along.1
            exact ⟨decided.mp kept, (ih later kept).mp along⟩
          · rintro ⟨allows, permitted⟩
            exact (ih later (decided.mpr allows)).mpr permitted

theorem forall_prefix_cons {holds : List Action → Prop} {action : Action} {rest : List Action} :
    (∀ done, done <+: action :: rest → holds done) ↔
      holds [] ∧ ∀ done, done <+: rest → holds (action :: done) := by
  constructor
  · intro all
    refine ⟨all [] List.nil_prefix, ?_⟩
    intro done initial
    exact all _ (List.cons_prefix_cons.mpr ⟨rfl, initial⟩)
  · rintro ⟨atStart, later⟩ done initial
    obtain rfl | ⟨tail, rfl, initialTail⟩ := List.prefix_cons_iff.mp initial
    · exact atStart
    · exact later tail initialTail

section Total

variable {next : State → Action → State} {holds : State → Prop} {allowed : State → Action → Prop}

/-- The property holds in the first state of a run and after each of its actions. -/
def AlongRun (next : State → Action → State) (holds : State → Prop) (state : State)
    (actions : List Action) : Prop :=
  ∀ done, done <+: actions → holds (done.foldl next state)

/-- Every action of a run meets the condition in the state in which it is taken. -/
def StepsMeet (next : State → Action → State) (allowed : State → Action → Prop) (state : State)
    (actions : List Action) : Prop :=
  ∀ done action, done ++ [action] <+: actions → allowed (done.foldl next state) action

theorem alongRun_cons {state : State} {action : Action} {rest : List Action} :
    AlongRun next holds state (action :: rest) ↔
      holds state ∧ AlongRun next holds (next state action) rest :=
  forall_prefix_cons

theorem stepsMeet_cons {state : State} {action : Action} {rest : List Action} :
    StepsMeet next allowed state (action :: rest) ↔
      allowed state action ∧ StepsMeet next allowed (next state action) rest := by
  constructor
  · intro meets
    refine ⟨meets [] action ⟨rest, rfl⟩, fun done last prefixes => ?_⟩
    exact meets (action :: done) last (List.cons_prefix_cons.mpr ⟨rfl, prefixes⟩)
  · rintro ⟨first, later⟩ done last prefixes
    cases done with
    | nil =>
        obtain ⟨rfl, _⟩ := List.cons_prefix_cons.mp prefixes
        exact first
    | cons head tail =>
        obtain ⟨rfl, tailPrefixes⟩ := List.cons_prefix_cons.mp prefixes
        exact later tail last tailPrefixes

instance AlongRun.decidable [DecidablePred holds] :
    ∀ state actions, Decidable (AlongRun next holds state actions)
  | state, [] => decidable_of_iff (holds state) (by simp [AlongRun, List.prefix_nil])
  | state, action :: rest =>
      have := AlongRun.decidable (next state action) rest
      decidable_of_iff _ alongRun_cons.symm

instance StepsMeet.decidable [∀ state action, Decidable (allowed state action)] :
    ∀ state actions, Decidable (StepsMeet next allowed state actions)
  | _, [] => isTrue (by simp [StepsMeet])
  | state, action :: rest =>
      have := StepsMeet.decidable (next state action) rest
      decidable_of_iff _ stepsMeet_cons.symm

/-- Where an invariant makes the condition on a step decide whether the property
survives it, the property holds along a run exactly when all its steps meet the condition. -/
theorem alongRun_iff_stepsMeet {Inv : State → Prop}
    (preserved : ∀ state action, Inv state → Inv (next state action))
    (decides : ∀ state action, Inv state → holds state →
      (holds (next state action) ↔ allowed state action))
    {state : State} (invariant : Inv state) (initially : holds state) (actions : List Action) :
    AlongRun next holds state actions ↔ StepsMeet next allowed state actions := by
  induction actions generalizing state with
  | nil =>
      simp only [AlongRun, StepsMeet, List.prefix_nil]
      constructor
      · intro _ done action empty
        simp at empty
      · rintro _ done rfl
        exact initially
  | cons action rest ih =>
      have decided := decides state action invariant initially
      rw [alongRun_cons, stepsMeet_cons, ← decided]
      constructor
      · rintro ⟨_, later⟩
        have kept : holds (next state action) := later [] List.nil_prefix
        exact ⟨kept, (ih (preserved state action invariant) kept).mp later⟩
      · rintro ⟨kept, later⟩
        exact ⟨initially, (ih (preserved state action invariant) kept).mpr later⟩

end Total

section Outputs

variable {Abstract Call Output : Type*}

/-- A run of calls that return something; none where one of them has no behaviour. -/
def runOutputs (step : State → Call → Option (Output × State)) :
    State → List Call → Option (List Output × State)
  | state, [] => some ([], state)
  | state, call :: rest =>
      (step state call).bind fun ended =>
        (runOutputs step ended.2 rest).map fun later => (ended.1 :: later.1, later.2)

def runSpec (spec : Abstract → Call → Output × Abstract) :
    Abstract → List Call → List Output × Abstract
  | abstract, [] => ([], abstract)
  | abstract, call :: rest =>
      let later := runSpec spec (spec abstract call).2 rest
      ((spec abstract call).1 :: later.1, later.2)

def paired (step : State → Call → Option (Output × State))
    (spec : Abstract → Call → Output × Abstract) (both : State × Abstract) (call : Call) :
    Option (State × Abstract) :=
  (step both.1 call).map fun ended => (ended.2, (spec both.2 call).2)

/-- Where each call does what the specification says and keeps the relation, so does a run. -/
theorem runOutputs_refines {step : State → Call → Option (Output × State)}
    {spec : Abstract → Call → Output × Abstract} {Related : State → Abstract → Prop}
    {allowed : State × Abstract → Call → Prop}
    (simulates : ∀ state abstract call, Related state abstract → allowed (state, abstract) call →
      ∃ next, step state call = some ((spec abstract call).1, next) ∧
        Related next (spec abstract call).2)
    {state : State} {abstract : Abstract} {calls : List Call} (related : Related state abstract)
    (permitted : Permitted (paired step spec) allowed (state, abstract) calls) :
    ∃ final, runOutputs step state calls = some ((runSpec spec abstract calls).1, final) ∧
      Related final (runSpec spec abstract calls).2 := by
  induction calls generalizing state abstract with
  | nil => exact ⟨state, rfl, related⟩
  | cons call rest ih =>
      obtain ⟨next, taken, kept⟩ := simulates state abstract call related permitted.1
      have later := permitted.2 (next, (spec abstract call).2) (by rw [paired, taken]; rfl)
      obtain ⟨final, ran, holds⟩ := ih kept later
      refine ⟨final, ?_, holds⟩
      rw [runOutputs, taken, Option.bind_some, ran]
      rfl

end Outputs

end DcCluster.Lib
