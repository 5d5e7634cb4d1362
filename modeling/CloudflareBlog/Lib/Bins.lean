import Mathlib.Algebra.GroupWithZero.Nat
import Mathlib.Data.List.TakeWhile
import Mathlib.Order.Lattice

/-!
# Bins with upper bounds

Values in ascending order are put into bins, one bin after the other: each takes what is not above
its bound.  Whatever the bounds are, a value gets into the first bin whose bound it does not exceed.
-/

namespace CloudflareBlog.Lib.Bins

variable {Value : Type} [LinearOrder Value] {values : List Value} {bins : List (Value × Nat)}

/-- The bins that take the values, and how many each of them takes. -/
inductive Fills : List Value → List (Value × Nat) → Prop where
  | last {bound : Value} {low : List Value} (below : ∀ v ∈ low, v ≤ bound) :
      Fills low [(bound, low.length)]
  | more {bound : Value} {low high : List Value} {bins : List (Value × Nat)}
      (below : ∀ v ∈ low, v ≤ bound) (above : ∀ v ∈ high, bound < v) (fills : Fills high bins) :
      Fills (low ++ high) ((bound, low.length) :: bins)

/-- The first bin whose bound a value does not exceed. -/
def firstBin (bins : List (Value × Nat)) (v : Value) : Option Nat :=
  bins.findIdx? fun bin => decide (v ≤ bin.1)

theorem firstBin_cons_below {bound v : Value} (below : v ≤ bound) (number : Nat)
    (bins : List (Value × Nat)) : firstBin ((bound, number) :: bins) v = some 0 := by
  simp [firstBin, List.findIdx?_cons, below]

theorem firstBin_cons_above {bound v : Value} (above : bound < v) (number : Nat)
    (bins : List (Value × Nat)) :
    firstBin ((bound, number) :: bins) v = (firstBin bins v).map (· + 1) := by
  simp [firstBin, List.findIdx?_cons, not_le_of_gt above]

theorem Fills.total (fills : Fills values bins) : (bins.map Prod.snd).sum = values.length := by
  induction fills with
  | last => exact List.sum_singleton
  | more _ _ _ inductionHypothesis =>
    rw [List.map_cons, List.sum_cons, inductionHypothesis, List.length_append]

/-- No value is left over. -/
theorem Fills.placed (fills : Fills values bins) {v : Value} (among : v ∈ values) :
    (firstBin bins v).isSome := by
  induction fills with
  | last below =>
    rw [firstBin_cons_below (below v among)]
    rfl
  | more below above _ inductionHypothesis =>
    cases List.mem_append.mp among with
    | inl low =>
      rw [firstBin_cons_below (below v low)]
      rfl
    | inr high =>
      rw [firstBin_cons_above (above v high), Option.isSome_map]
      exact inductionHypothesis high

theorem countP_firstBin_below {bound : Value} {low : List Value} (below : ∀ v ∈ low, v ≤ bound)
    (number : Nat) (bins : List (Value × Nat)) (k : Nat) :
    low.countP (fun v => decide (firstBin ((bound, number) :: bins) v = some k)) =
      if k = 0 then low.length else 0 := by
  by_cases zero : k = 0
  · rw [if_pos zero, List.countP_eq_length]
    intro v among
    rw [firstBin_cons_below (below v among), zero]
    exact decide_eq_true rfl
  · rw [if_neg zero, List.countP_eq_zero]
    intro v among
    rw [firstBin_cons_below (below v among), decide_eq_true_eq, Option.some_inj]
    exact fun same => zero same.symm

theorem countP_firstBin_above {bound : Value} {high : List Value} (above : ∀ v ∈ high, bound < v)
    (number : Nat) (bins : List (Value × Nat)) (k : Nat) :
    high.countP (fun v => decide (firstBin ((bound, number) :: bins) v = some k)) =
      if k = 0 then 0 else high.countP fun v => decide (firstBin bins v = some (k - 1)) := by
  cases k with
  | zero =>
    rw [if_pos rfl, List.countP_eq_zero]
    intro v among
    rw [firstBin_cons_above (above v among), decide_eq_true_eq]
    simp
  | succ k =>
    rw [if_neg (Nat.succ_ne_zero k)]
    refine List.countP_congr fun v among => ?_
    rw [firstBin_cons_above (above v among)]
    simp

/-- A bin has counted the values that belong into it. -/
theorem Fills.counted (fills : Fills values bins) {k : Nat} {bin : Value × Nat}
    (isBin : bins[k]? = some bin) :
    bin.2 = values.countP fun v => decide (firstBin bins v = some k) := by
  induction fills generalizing k with
  | last below =>
    cases k with
    | zero =>
      rw [countP_firstBin_below below, ← Option.some.inj isBin]
      rfl
    | succ k => cases isBin
  | more below above _ inductionHypothesis =>
    rw [List.countP_append, countP_firstBin_below below, countP_firstBin_above above]
    cases k with
    | zero =>
      rw [← Option.some.inj isBin]
      rfl
    | succ k =>
      rw [if_neg (Nat.succ_ne_zero k), if_neg (Nat.succ_ne_zero k), Nat.zero_add]
      exact inductionHypothesis isBin

/-- Of values in ascending order, those behind the first that exceeds a bound exceed it as well. -/
theorem above_of_mem_dropWhile {bound : Value} (sorted : values.Pairwise (· ≤ ·)) {v : Value}
    (among : v ∈ values.dropWhile fun v => decide (v ≤ bound)) : bound < v := by
  induction values with
  | nil => cases among
  | cons first rest inductionHypothesis =>
    obtain ⟨least, sortedRest⟩ := List.pairwise_cons.mp sorted
    rw [List.dropWhile_cons] at among
    by_cases below : first ≤ bound
    · rw [if_pos (decide_eq_true below)] at among
      exact inductionHypothesis sortedRest among
    · rw [if_neg (by simpa using below)] at among
      cases List.mem_cons.mp among with
      | inl same =>
        rw [same]
        exact lt_of_not_ge below
      | inr behind => exact lt_of_lt_of_le (lt_of_not_ge below) (least v behind)

end CloudflareBlog.Lib.Bins
