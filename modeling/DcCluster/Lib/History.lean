import Mathlib.Data.List.Induction

/-!
Properties of a run that depend on the order of its past events. `Since` is the
past operator of temporal logic: something happened and nothing has undone it
since. `Each` says that every event was in order when it came. What an event means
may depend on the events before it.
-/

namespace DcCluster.Lib

variable {Event : Type*}

/-- An event starts it, and none of the later events breaks it. -/
def Since (starts breaks : List Event → Event → Prop) (history : List Event) : Prop :=
  ∃ before event after, history = before ++ event :: after ∧ starts before event ∧
    ∀ mid later rest, after = mid ++ later :: rest → ¬ breaks (before ++ event :: mid) later

variable {starts breaks : List Event → Event → Prop}

theorem not_since_nil : ¬ Since starts breaks [] := by
  rintro ⟨before, event, after, split, _⟩
  simp at split

theorem since_append_singleton {history : List Event} {last : Event} :
    Since starts breaks (history ++ [last]) ↔
      starts history last ∨ Since starts breaks history ∧ ¬ breaks history last := by
  constructor
  · rintro ⟨before, event, after, split, started, unbroken⟩
    rcases List.eq_nil_or_concat after with rfl | ⟨init, final, rfl⟩
    · obtain ⟨rfl, rfl⟩ := List.append_singleton_inj.mp split
      exact .inl started
    · rw [List.concat_eq_append, ← List.cons_append, ← List.append_assoc] at split
      obtain ⟨rfl, rfl⟩ := List.append_singleton_inj.mp split
      refine .inr ⟨⟨before, event, init, rfl, started, ?_⟩, unbroken init last [] (by simp)⟩
      intro mid later rest here
      exact unbroken mid later (rest ++ [last]) (by simp [here])
  · rintro (started | ⟨⟨before, event, after, rfl, started, unbroken⟩, survives⟩)
    · exact ⟨history, last, [], rfl, started, by simp⟩
    · refine ⟨before, event, after ++ [last], by simp, started, ?_⟩
      intro mid later rest split
      rcases List.eq_nil_or_concat rest with rfl | ⟨init, final, rfl⟩
      · obtain ⟨rfl, rfl⟩ := List.append_singleton_inj.mp split
        exact survives
      · rw [List.concat_eq_append, ← List.cons_append, ← List.append_assoc] at split
        exact unbroken mid later init (List.append_singleton_inj.mp split).1

theorem since_map {Other : Type*} {view : Other → Event} {history : List Other} :
    Since starts breaks (history.map view) ↔
      Since (fun before event => starts (before.map view) (view event))
        (fun before event => breaks (before.map view) (view event)) history := by
  induction history using List.reverseRecOn with
  | nil => exact iff_of_false not_since_nil not_since_nil
  | append_singleton before last ih =>
      rw [List.map_append, List.map_singleton, since_append_singleton, since_append_singleton, ih]

/-- Every event of the history is allowed by the ones before it. -/
def Each (allowed : List Event → Event → Prop) (history : List Event) : Prop :=
  ∀ before event after, history = before ++ event :: after → allowed before event

theorem each_append_singleton {allowed : List Event → Event → Prop} {history : List Event}
    {last : Event} : Each allowed (history ++ [last]) ↔ Each allowed history ∧ allowed history last := by
  constructor
  · intro each
    refine ⟨fun before event after split => ?_, each history last [] rfl⟩
    exact each before event (after ++ [last]) (by simp [split])
  · rintro ⟨each, isLast⟩ before event after split
    rcases List.eq_nil_or_concat after with rfl | ⟨init, final, rfl⟩
    · obtain ⟨rfl, rfl⟩ := List.append_singleton_inj.mp split
      exact isLast
    · rw [List.concat_eq_append, ← List.cons_append, ← List.append_assoc] at split
      exact each before event init (List.append_singleton_inj.mp split).1

end DcCluster.Lib
