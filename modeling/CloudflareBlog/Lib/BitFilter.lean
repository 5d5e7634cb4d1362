import Mathlib.Data.List.Basic

/-!
# Filters over a set of bits

A key is remembered by setting some bits, its positions.  It is known when all of them are set, so
a key that was remembered is known ever after, and a key that was not may be known by accident.

`Store` is a store of bits with a test and a way to set one.  `record` sets positions one after
another and notes whether one of them was clear when its turn came, which is whether one was clear
in the beginning (`record_missed`).
-/

namespace CloudflareBlog.Lib.BitFilter

variable {β ι : Type*} [DecidableEq ι]

structure Store (β ι : Type*) [DecidableEq ι] where
  test : β → ι → Bool
  set : β → ι → β
  test_set : ∀ bits position other,
    test (set bits position) other = (decide (position = other) || test bits other)

namespace Store

variable (store : Store β ι)

/-- Set one position, and note in `missed` if it was clear. -/
def touch (state : Bool × β) (position : ι) : Bool × β :=
  if store.test state.2 position then state else (true, store.set state.2 position)

/-- Set positions one after another. -/
def record (state : Bool × β) (positions : List ι) : Bool × β := positions.foldl store.touch state

/-- All the positions are set. -/
def Known (bits : β) (positions : List ι) : Prop := ∀ position ∈ positions, store.test bits position

@[simp] theorem record_nil (state : Bool × β) : store.record state [] = state := rfl

@[simp] theorem record_cons (state : Bool × β) (position : ι) (positions : List ι) :
    store.record state (position :: positions) =
      store.record (store.touch state position) positions := rfl

theorem test_touch (state : Bool × β) (position other : ι) :
    store.test (store.touch state position).2 other =
      (decide (position = other) || store.test state.2 other) := by
  rw [touch]
  split
  next present =>
    by_cases same : position = other
    · subst same
      simp [present]
    · simp [same]
  next => exact store.test_set _ _ _

theorem test_record (state : Bool × β) (positions : List ι) (other : ι) :
    store.test (store.record state positions).2 other = true ↔
      other ∈ positions ∨ store.test state.2 other = true := by
  induction positions generalizing state with
  | nil => simp
  | cons position positions inductionHypothesis =>
    rw [record_cons, inductionHypothesis, test_touch, List.mem_cons]
    simp only [Bool.or_eq_true, decide_eq_true_eq, eq_comm (a := position)]
    tauto

theorem known_record (state : Bool × β) (positions : List ι) :
    store.Known (store.record state positions).2 positions := fun position among =>
  (store.test_record state positions position).mpr (.inl among)

variable {store}

theorem Known.record {bits : β} {known : List ι} (holds : store.Known bits known) (missed : Bool)
    (positions : List ι) : store.Known (store.record (missed, bits) positions).2 known :=
  fun position among =>
    (store.test_record (missed, bits) positions position).mpr (.inr (holds position among))

/-- Positions that are set already leave everything as it is. -/
theorem Known.record_self {bits : β} {positions : List ι} (holds : store.Known bits positions)
    (missed : Bool) : store.record (missed, bits) positions = (missed, bits) := by
  induction positions with
  | nil => rfl
  | cons position positions inductionHypothesis =>
    rw [record_cons, touch, if_pos (holds position List.mem_cons_self)]
    exact inductionHypothesis fun later among => holds later (List.mem_cons_of_mem _ among)

variable (store)

/-- A position was found clear exactly if one was clear in the beginning, even when positions
repeat. -/
theorem record_missed (state : Bool × β) (positions : List ι) :
    (store.record state positions).1 = true ↔
      state.1 = true ∨ ∃ position ∈ positions, store.test state.2 position = false := by
  induction positions generalizing state with
  | nil => simp
  | cons position positions inductionHypothesis =>
    rw [record_cons, inductionHypothesis]
    cases present : store.test state.2 position with
    | true => simp [touch, present]
    | false => simp [touch, present]

end Store

end CloudflareBlog.Lib.BitFilter
