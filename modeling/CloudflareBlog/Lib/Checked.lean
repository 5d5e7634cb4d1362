import Mathlib.Data.List.Basic

/-!
# Loops that may stop

Rules for computations in `Except`: what a result of `>>=` and of a loop over a list says about the
parts.
-/

namespace CloudflareBlog.Lib.Checked

universe u

variable {ε α : Type*} {β γ σ : Type u}

theorem bind_eq_ok {x : Except ε β} {f : β → Except ε γ} {c : γ} :
    (x >>= f) = .ok c ↔ ∃ b, x = .ok b ∧ f b = .ok c := by
  cases x with
  | error stop =>
    constructor
    · exact fun result => nomatch result
    · exact fun ⟨_, result, _⟩ => nomatch result
  | ok b =>
    constructor
    · exact fun result => ⟨b, rfl, result⟩
    · rintro ⟨_, same, result⟩
      cases same
      exact result

instance decidableExistsOk {x : Except ε α} {p : α → Prop} [DecidablePred p] :
    Decidable (∃ a, x = .ok a ∧ p a) :=
  match x with
  | .error _ => isFalse fun ⟨_, result, _⟩ => nomatch result
  | .ok a => decidable_of_iff (p a)
      ⟨fun holds => ⟨a, rfl, holds⟩, fun ⟨_, same, holds⟩ => Except.ok.inj same ▸ holds⟩

variable {f : σ → α → Except ε σ} {start final : σ}

theorem foldlM_cons_ok {x : α} {xs : List α} :
    (x :: xs).foldlM f start = .ok final ↔
      ∃ next, f start x = .ok next ∧ xs.foldlM f next = .ok final := by
  rw [List.foldlM_cons]
  exact bind_eq_ok

theorem foldlM_append_ok {xs ys : List α} :
    (xs ++ ys).foldlM f start = .ok final ↔
      ∃ middle, xs.foldlM f start = .ok middle ∧ ys.foldlM f middle = .ok final := by
  rw [List.foldlM_append]
  exact bind_eq_ok

/-- What every step of a loop preserves holds after the loop. -/
theorem foldlM_preserves {P : List α → σ → Prop} {xs : List α}
    (step : ∀ x rest s t, P (x :: rest) s → f s x = .ok t → P rest t)
    (initial : P xs start) (run : xs.foldlM f start = .ok final) : P [] final := by
  induction xs generalizing start with
  | nil =>
    cases run
    exact initial
  | cons x xs inductionHypothesis =>
    obtain ⟨next, here, rest⟩ := foldlM_cons_ok.mp run
    exact inductionHypothesis (step x xs start next initial here) rest

end CloudflareBlog.Lib.Checked
