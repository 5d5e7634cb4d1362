import Mathlib.Data.List.Basic

/-!
# Computations that log what they do

A computation logs events and then has a value, or it has ended the program.  What a computation logs is
looked at through a filter, which keeps the events that belong to one matter.
-/

namespace CloudflareBlog.Lib

/-- The events, and the value unless the program has ended. -/
@[ext] structure Logged (E α : Type) where
  events : List E
  value : Option α

namespace Logged

variable {E M α β : Type}

instance : Monad (Logged E) where
  pure a := ⟨[], some a⟩
  bind x f :=
    match x.value with
    | some a => ⟨x.events ++ (f a).events, (f a).value⟩
    | none => ⟨x.events, none⟩

def emit (event : E) : Logged E Unit := ⟨[event], some ()⟩

/-- The program ends here. -/
def stop : Logged E α := ⟨[], none⟩

def ensure (ok : Bool) : Logged E Unit := if ok then pure () else stop

def whenever (condition : Bool) (x : Logged E Unit) : Logged E Unit :=
  if condition then x else pure ()

def orStop (value : Option α) : Logged E α := ⟨[], value⟩

variable (x : Logged E α) (f : α → Logged E β)

@[simp] theorem events_pure (a : α) : (pure a : Logged E α).events = [] := rfl

@[simp] theorem value_pure (a : α) : (pure a : Logged E α).value = some a := rfl

@[simp] theorem events_emit (event : E) : (emit event).events = [event] := rfl

@[simp] theorem value_emit (event : E) : (emit event).value = some () := rfl

@[simp] theorem events_ensure (ok : Bool) : (ensure ok : Logged E Unit).events = [] := by
  cases ok <;> rfl

theorem value_whenever {condition : Bool} {x : Logged E Unit} (goes : x.value = some ()) :
    (whenever condition x).value = some () := by
  cases condition with
  | true => exact goes
  | false => rfl

@[simp] theorem events_orStop (value : Option α) : (orStop value : Logged E α).events = [] := rfl

@[simp] theorem value_orStop (value : Option α) : (orStop value : Logged E α).value = value := rfl

theorem value_bind : (x >>= f).value = x.value.bind fun a => (f a).value := by
  obtain ⟨events, value⟩ := x
  cases value <;> rfl

theorem value_bind_eq_some_iff {b : β} :
    (x >>= f).value = some b ↔ ∃ a, x.value = some a ∧ (f a).value = some b := by
  rw [value_bind, Option.bind_eq_some_iff]

theorem events_bind_of_some {a : α} (has : x.value = some a) :
    (x >>= f).events = x.events ++ (f a).events := by
  obtain ⟨events, value⟩ := x
  obtain rfl : value = some a := has
  rfl

theorem events_bind_of_none (ended : x.value = none) : (x >>= f).events = x.events := by
  obtain ⟨events, value⟩ := x
  obtain rfl : value = none := ended
  rfl

/-- Where a computation ends, what it has logged is the beginning of what it was to log. -/
structure Follows (keep : E → Option M) (plan : List M) (x : Logged E α) : Prop where
  part : x.events.filterMap keep <+: plan
  whole : x.value.isSome = true → x.events.filterMap keep = plan

variable {keep : E → Option M} {plan first second : List M} {x : Logged E α} {f : α → Logged E β}

theorem Follows.bind (before : Follows keep first x)
    (after : ∀ a, x.value = some a → Follows keep second (f a)) :
    Follows keep (first ++ second) (x >>= f) := by
  cases has : x.value with
  | some a =>
    have done : x.events.filterMap keep = first := before.whole (by rw [has]; rfl)
    refine ⟨?_, fun isSome => ?_⟩
    · rw [events_bind_of_some x f has, List.filterMap_append, done]
      exact (List.prefix_append_right_inj first).mpr (after a has).part
    · rw [value_bind, has, Option.bind_some] at isSome
      rw [events_bind_of_some x f has, List.filterMap_append, done, (after a has).whole isSome]
  | none =>
    refine ⟨?_, fun isSome => ?_⟩
    · rw [events_bind_of_none x f has]
      exact before.part.trans (List.prefix_append first second)
    · rw [value_bind, has] at isSome
      cases isSome

/-- What is done first does not belong to the matter. -/
theorem Follows.skip (before : Follows keep [] x)
    (after : ∀ a, x.value = some a → Follows keep plan (f a)) : Follows keep plan (x >>= f) :=
  before.bind after

theorem Follows.of_events (same : x.events.filterMap keep = plan) : Follows keep plan x :=
  ⟨same ▸ List.prefix_rfl, fun _ => same⟩

theorem Follows.of_nil (nothing : ∀ event ∈ x.events, keep event = none) : Follows keep [] x := by
  exact .of_events (List.filterMap_eq_nil_iff.mpr nothing)

theorem Follows.ensure (keep : E → Option M) (ok : Bool) : Follows keep [] (ensure ok) :=
  .of_events (by rw [events_ensure, List.filterMap_nil])

theorem Follows.orStop (keep : E → Option M) (value : Option α) : Follows keep [] (orStop value) :=
  .of_events rfl

theorem Follows.emit {event : E} (other : keep event = none) : Follows keep [] (emit event) :=
  .of_events (List.filterMap_cons_none other)

theorem Follows.pure (keep : E → Option M) (a : α) : Follows keep [] (pure a : Logged E α) :=
  .of_events rfl

theorem Follows.whenever {condition : Bool} {x : Logged E Unit} (follows : Follows keep plan x) :
    Follows keep (if condition then plan else []) (whenever condition x) := by
  cases condition with
  | true => exact follows
  | false => exact .pure keep ()

end Logged

end CloudflareBlog.Lib
