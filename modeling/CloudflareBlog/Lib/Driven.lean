import Mathlib.Data.List.Basic

/-!
# Programs driven by their environment

A program whose every step waits for an answer from outside: the list of answers is its run.  The
answers come in any order, so a property of the program is a property of all lists; an answer that
cannot come in a state has no next state, and says nothing.
-/

namespace CloudflareBlog.Lib.Driven

variable {State Input : Type}

/-- The property holds in every state that the run goes through. -/
def Always (step : State → Input → Option State) (property : State → Prop) :
    State → List Input → Prop
  | state, [] => property state
  | state, input :: inputs =>
    property state ∧ ∀ next, step state input = some next → Always step property next inputs

/-- Every step that the run takes meets the condition. -/
def EachStep (step : State → Input → Option State) (condition : State → Input → Prop) :
    State → List Input → Prop
  | _, [] => True
  | state, input :: inputs => ∀ next, step state input = some next →
      condition state input ∧ EachStep step condition next inputs

variable {step : State → Input → Option State} {property invariant : State → Prop}
  {condition : State → Input → Prop} {state : State} {inputs : List Input}

theorem Always.head (always : Always step property state inputs) : property state := by
  cases inputs with
  | nil => exact always
  | cons input rest => exact always.1

/-- Two conditions on the steps of a run are met together. -/
theorem EachStep.and {first second : State → Input → Prop} (each : EachStep step first state inputs)
    (others : EachStep step second state inputs) :
    EachStep step (fun s input => first s input ∧ second s input) state inputs := by
  induction inputs generalizing state with
  | nil => exact trivial
  | cons input rest ih =>
    intro next stepped
    obtain ⟨met, after⟩ := each next stepped
    obtain ⟨also, behind⟩ := others next stepped
    exact ⟨⟨met, also⟩, ih after behind⟩

/-- The rule for runs: what every step under the condition keeps holds all along a run whose steps
meet the condition. -/
theorem always_of_eachStep (implies : ∀ s, invariant s → property s)
    (keeps : ∀ s input t, invariant s → condition s input → step s input = some t → invariant t)
    (start : invariant state) (each : EachStep step condition state inputs) :
    Always step property state inputs := by
  induction inputs generalizing state with
  | nil => exact implies state start
  | cons input rest ih =>
    refine ⟨implies state start, fun next stepped => ?_⟩
    obtain ⟨met, others⟩ := each next stepped
    exact ih (keeps state input next start met stepped) others

/-- The condition is the exact one when a step that does not meet it leads out of the property. -/
theorem always_iff_eachStep (implies : ∀ s, invariant s → property s)
    (keeps : ∀ s input t, invariant s → condition s input → step s input = some t → invariant t)
    (breaks : ∀ s input t, invariant s → ¬ condition s input → step s input = some t → ¬ property t)
    (start : invariant state) :
    Always step property state inputs ↔ EachStep step condition state inputs := by
  refine ⟨fun always => ?_, always_of_eachStep implies keeps start⟩
  induction inputs generalizing state with
  | nil => exact trivial
  | cons input rest ih =>
    intro next stepped
    have along : Always step property next rest := always.2 next stepped
    have met : condition state input := by
      by_contra unmet
      exact breaks state input next start unmet stepped along.head
    exact ⟨met, ih (keeps state input next start met stepped) along⟩

/-- Two conditions that agree wherever the invariant holds are met by the same runs. -/
theorem eachStep_congr {first second : State → Input → Prop}
    (keeps : ∀ s input t, invariant s → step s input = some t → invariant t)
    (agree : ∀ s input, invariant s → (first s input ↔ second s input))
    (start : invariant state) :
    EachStep step first state inputs ↔ EachStep step second state inputs := by
  induction inputs generalizing state with
  | nil => exact Iff.rfl
  | cons input rest ih =>
    apply forall_congr'
    intro next
    apply imp_congr_right
    intro stepped
    exact and_congr (agree state input start) (ih (keeps state input next start stepped))

end CloudflareBlog.Lib.Driven
