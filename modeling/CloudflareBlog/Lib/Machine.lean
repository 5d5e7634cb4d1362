import Mathlib.Data.List.Basic

/-!
# Runs of a machine

A step takes a state to the next one and says what happened on the way.  A run is any number of
steps; what happened in it is what happened in its steps, in order.
-/

namespace CloudflareBlog.Lib.Machine

variable {State Event : Type}

abbrev Step (State Event : Type) := State → Option (List Event × State)

/-- The given number of steps. -/
def run (step : Step State Event) : Nat → State → Option (List Event × State)
  | 0, state => some ([], state)
  | count + 1, state =>
    (step state).bind fun turn =>
      (run step count turn.2).map fun rest => (turn.1 ++ rest.1, rest.2)

/-- Some number of steps leads from one state to the other, with these events. -/
def Runs (step : Step State Event) (state : State) (events : List Event) (final : State) : Prop :=
  ∃ count, run step count state = some (events, final)

variable {step : Step State Event} {state middle final : State} {first second : List Event}

theorem Runs.refl (step : Step State Event) (state : State) : Runs step state [] state :=
  ⟨0, rfl⟩

theorem Runs.head (stepped : step state = some (first, middle))
    (rest : Runs step middle second final) : Runs step state (first ++ second) final := by
  obtain ⟨count, ran⟩ := rest
  refine ⟨count + 1, ?_⟩
  rw [run, stepped, Option.bind_some]
  simp only [ran, Option.map_some]

theorem Runs.of_step (stepped : step state = some (first, final)) :
    Runs step state first final := by
  have whole := Runs.head stepped (Runs.refl step final)
  rwa [List.append_nil] at whole

theorem Runs.trans (before : Runs step state first middle)
    (after : Runs step middle second final) : Runs step state (first ++ second) final := by
  obtain ⟨count, ran⟩ := before
  induction count generalizing state first with
  | zero =>
    obtain ⟨rfl, rfl⟩ : [] = first ∧ state = middle := by simpa [run] using ran
    exact after
  | succ count inductionHypothesis =>
    rw [run] at ran
    obtain ⟨turn, stepped, mapped⟩ := Option.bind_eq_some_iff.mp ran
    obtain ⟨rest, restRan, same⟩ := Option.map_eq_some_iff.mp mapped
    obtain ⟨rfl, rfl⟩ : turn.1 ++ rest.1 = first ∧ rest.2 = middle := by simpa using same
    rw [List.append_assoc]
    exact Runs.head stepped (inductionHypothesis restRan)

/-- The rule for code that repeats: if each turn keeps the invariant, then all turns do, and their
events follow each other. -/
theorem Runs.iterate (invariant : Nat → State → Prop) (events : Nat → List Event) {count : Nat}
    (turn : ∀ i < count, ∀ s, invariant i s →
      ∃ t, Runs step s (events i) t ∧ invariant (i + 1) t)
    (start : invariant 0 state) :
    ∃ t, Runs step state ((List.range count).flatMap events) t ∧ invariant count t := by
  induction count with
  | zero => exact ⟨state, Runs.refl step state, start⟩
  | succ count inductionHypothesis =>
    obtain ⟨s, before, reached⟩ :=
      inductionHypothesis fun i inside => turn i (Nat.lt_succ_of_lt inside)
    obtain ⟨t, last, kept⟩ := turn count (Nat.lt_succ_self count) s reached
    refine ⟨t, ?_, kept⟩
    rw [List.range_succ, List.flatMap_append, List.flatMap_singleton]
    exact before.trans last

end CloudflareBlog.Lib.Machine
