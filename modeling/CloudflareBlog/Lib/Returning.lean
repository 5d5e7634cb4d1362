import CloudflareBlog.Lib.Raising

/-!
# What a program returns

A program that may raise an exception: what holds of all that it returns, and the rules for its parts.
-/

namespace CloudflareBlog.Lib.Raising

variable {State Exception α β : Type} {first : Program State Exception α}
  {second : α → Program State Exception β} {between : α → Prop} {result : β → Prop}

/-- The result has the property, unless the program raises. -/
structure Returns (result : α → Prop) (program : Program State Exception α) : Prop where
  of_ok : ∀ {state a left}, exec program state = (.ok a, left) → result a

theorem Returns.pure {b : β} (holds : result b) :
    Returns result (pure b : Program State Exception β) := by
  refine ⟨fun {state a left} ran => ?_⟩
  obtain ⟨rfl, -⟩ : b = a ∧ _ := by simpa using ran
  exact holds

theorem Returns.throw (exception : Exception) :
    Returns result (throw exception : Program State Exception β) := by
  refine ⟨fun ran => ?_⟩
  rw [exec_throw] at ran
  cases ran

theorem Returns.trivial (program : Program State Exception α) : Returns (fun _ => True) program :=
  ⟨fun _ => True.intro⟩

theorem Returns.mono {stronger : β → Prop} {program : Program State Exception β}
    (returns : Returns stronger program) (implies : ∀ b, stronger b → result b) :
    Returns result program :=
  ⟨fun ran => implies _ (returns.of_ok ran)⟩

theorem Returns.bind (before : Returns between first)
    (after : ∀ a, between a → Returns result (second a)) : Returns result (first >>= second) := by
  refine ⟨fun {state b left} ran => ?_⟩
  cases ranFirst : exec first state with
  | mk outcome middle =>
    cases outcome with
    | error exception =>
      rw [exec_bind_error ranFirst] at ran
      cases ran
    | ok a =>
      rw [exec_bind_ok ranFirst] at ran
      exact (after a (before.of_ok ranFirst)).of_ok ran

/-- The property does not depend on what the first part returns. -/
theorem Returns.after (after : ∀ a, Returns result (second a)) : Returns result (first >>= second) :=
  (Returns.trivial first).bind fun a _ => after a

end CloudflareBlog.Lib.Raising
