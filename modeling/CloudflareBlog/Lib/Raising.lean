import Mathlib.Data.List.Basic

/-!
# Programs that raise exceptions

A program that changes a state and may raise an exception, which does not take back what has been
changed: `ExceptT` over a state.  Its runs, and the rule for what all its parts keep.
-/

namespace CloudflareBlog.Lib.Raising

/-- Programs on a state, with exceptions. -/
abbrev Program (State Exception : Type) := ExceptT Exception (StateM State)

variable {State Exception α β : Type}

/-- The result of a program, or its exception, and the state it leaves behind. -/
def exec (program : Program State Exception α) (state : State) : Except Exception α × State :=
  program.run.run state

@[simp] theorem exec_pure (a : α) (state : State) :
    exec (pure a : Program State Exception α) state = (.ok a, state) := rfl

@[simp] theorem exec_throw (exception : Exception) (state : State) :
    exec (throw exception : Program State Exception α) state = (.error exception, state) := rfl

@[simp] theorem exec_get (state : State) :
    exec (get : Program State Exception State) state = (.ok state, state) := rfl

@[simp] theorem exec_modify (change : State → State) (state : State) :
    exec (modify change : Program State Exception Unit) state = (.ok (), change state) := rfl

@[simp] theorem exec_ofExcept (result : Except Exception α) (state : State) :
    exec (ofExcept result : Program State Exception α) state = (result, state) := by
  cases result with
  | error exception => rfl
  | ok a => rfl

variable {first : Program State Exception α} {second : α → Program State Exception β}
  {state between : State}

theorem exec_bind_ok {a : α} (ran : exec first state = (.ok a, between)) :
    exec (first >>= second) state = exec (second a) between := by
  simp only [exec, ExceptT.run_bind, StateT.run_bind] at ran ⊢
  rw [ran]
  rfl

theorem exec_bind_error {exception : Exception} (ran : exec first state = (.error exception, between)) :
    exec (first >>= second) state = (.error exception, between) := by
  simp only [exec, ExceptT.run_bind, StateT.run_bind] at ran ⊢
  rw [ran]
  rfl

/-! ## What a program keeps -/

/-- The property of the state outlives the program, whether it returns or raises. -/
def Keeps (property : State → Prop) (program : Program State Exception α) : Prop :=
  ∀ state, property state → property (exec program state).2

variable {property : State → Prop}

theorem Keeps.pure (a : α) : Keeps property (pure a : Program State Exception α) :=
  fun _ holds => holds

theorem Keeps.throw (exception : Exception) :
    Keeps property (throw exception : Program State Exception α) :=
  fun _ holds => holds

theorem Keeps.ofExcept (result : Except Exception α) :
    Keeps property (ofExcept result : Program State Exception α) := by
  intro state holds
  rw [exec_ofExcept]
  exact holds

theorem Keeps.get : Keeps property (get : Program State Exception State) := fun _ holds => holds

theorem Keeps.modify {change : State → State}
    (changes : ∀ state, property state → property (change state)) :
    Keeps property (modify change : Program State Exception Unit) :=
  fun state holds => changes state holds

theorem Keeps.ite {condition : Prop} [Decidable condition] {yes no : Program State Exception α}
    (keepsYes : condition → Keeps property yes) (keepsNo : ¬ condition → Keeps property no) :
    Keeps property (if condition then yes else no) := by
  by_cases holds : condition
  · rw [if_pos holds]
    exact keepsYes holds
  · rw [if_neg holds]
    exact keepsNo holds

theorem Keeps.bind (keepsFirst : Keeps property first) (keepsSecond : ∀ a, Keeps property (second a)) :
    Keeps property (first >>= second) := by
  intro state holds
  have kept := keepsFirst state holds
  cases ran : exec first state with
  | mk result between =>
    rw [ran] at kept
    cases result with
    | error exception =>
      rw [exec_bind_error ran]
      exact kept
    | ok a =>
      rw [exec_bind_ok ran]
      exact keepsSecond a between kept

end CloudflareBlog.Lib.Raising
