import Mathlib.Algebra.BigOperators.Intervals
import Mathlib.Algebra.Order.BigOperators.Ring.Finset
import Mathlib.Tactic.Linarith
import Mathlib.Tactic.Ring

/-!
# Error diffusion

A row of values is quantised from the first on, and the error of each is spread over others with
fixed weights.  When the weights are causal, that is, when each value gives to later ones only, a
value is never changed again after it was quantised (`sweep_of_lt`), and what it is before is its start
plus what the earlier ones gave it (`sweep_eq_sum`).  So errors do not accumulate if no value gets more
than a weight of one in all (`sweep_mem_bounds`).
-/

namespace CloudflareBlog.Lib.Diffusion

variable {K : Type*} [Field K] (quantise : K → K) (weight other : Nat → Nat → K)

/-- One step: the value at `i` is quantised, and its error is given away. -/
def diffuse (px : Nat → K) (i : Nat) : Nat → K := fun j =>
  (if j = i then quantise (px i) else px j) + (px i - quantise (px i)) * weight i j

/-- The values after the first steps. -/
def sweep (px : Nat → K) : Nat → Nat → K
  | 0 => px
  | count + 1 => diffuse quantise weight (sweep px count) count

/-- The error of a value, at its step. -/
def error (px : Nat → K) (i : Nat) : K :=
  sweep quantise weight px i i - quantise (sweep quantise weight px i i)

/-- No value gives anything to itself or to an earlier one. -/
def Causal : Prop := ∀ i j, j ≤ i → weight i j = 0

variable {quantise weight other} {px : Nat → K} {i j count : Nat}

theorem sweep_succ_self (causal : Causal weight) :
    sweep quantise weight px (i + 1) i = quantise (sweep quantise weight px i i) := by
  rw [sweep, diffuse, if_pos rfl, causal i i le_rfl, mul_zero, add_zero]

theorem sweep_succ_of_ne (ne : j ≠ i) :
    sweep quantise weight px (i + 1) j =
      sweep quantise weight px i j + error quantise weight px i * weight i j := by
  rw [sweep, diffuse, if_neg ne, error]

/-- A quantised value is not changed again. -/
theorem sweep_of_lt (causal : Causal weight) (before : j < count) :
    sweep quantise weight px count j = quantise (sweep quantise weight px j j) := by
  induction count with
  | zero => exact absurd before (Nat.not_lt_zero j)
  | succ count inductionHypothesis =>
    obtain earlier | rfl := Nat.lt_succ_iff_lt_or_eq.mp before
    · rw [sweep_succ_of_ne earlier.ne, causal count j earlier.le, mul_zero, add_zero]
      exact inductionHypothesis earlier
    · exact sweep_succ_self causal

/-- Before its step a value has what it began with, and what the earlier ones gave it. -/
theorem sweep_eq_sum (after : count ≤ j) :
    sweep quantise weight px count j =
      px j + ∑ i ∈ Finset.range count, error quantise weight px i * weight i j := by
  induction count with
  | zero => simp [sweep]
  | succ count inductionHypothesis =>
    rw [sweep_succ_of_ne (by omega), inductionHypothesis (by omega), Finset.sum_range_succ, add_assoc]

/-! ## Values that are exact -/

/-- Steps without an error are those of any weights. -/
theorem sweep_congr (same : ∀ i < count, ∀ j,
    error quantise weight px i * weight i j = error quantise weight px i * other i j) :
    sweep quantise weight px count = sweep quantise other px count := by
  induction count with
  | zero => rfl
  | succ count inductionHypothesis =>
    have before := inductionHypothesis fun i early => same i (by omega)
    have here := same count (by omega)
    funext j
    rw [error, before] at here
    rw [sweep, sweep, before, diffuse, diffuse, here j]

/-- So are those of weights that differ at exact values only. -/
theorem sweep_congr_of_exact {special : Nat → Prop} {bound : Nat}
    (agree : ∀ i, ¬ special i → ∀ j, weight i j = other i j)
    (exact : ∀ i < bound, special i → error quantise weight px i = 0) (turns : count ≤ bound) :
    sweep quantise weight px count = sweep quantise other px count := by
  refine sweep_congr fun i early j => ?_
  by_cases here : special i
  · rw [exact i (by omega) here, zero_mul, zero_mul]
  · rw [agree i here]

/-- A row of quantised values stays as it is. -/
theorem sweep_of_exact (exact : ∀ i < count, quantise (px i) = px i) :
    sweep quantise weight px count = px := by
  induction count with
  | zero => rfl
  | succ count inductionHypothesis =>
    have here := exact count (by omega)
    funext j
    rw [sweep, inductionHypothesis fun i early => exact i (by omega), diffuse, here, sub_self,
      zero_mul, add_zero]
    split
    next same => rw [same]
    next => rfl

/-! ## Bounds -/

section Bounds

variable [LinearOrder K] [IsStrictOrderedRing K] {low high first last : K}

/-- If values with an error in bounds have their errors in the same bounds, and no value gets more than
a weight of one, then all values and all errors of the row are in bounds. -/
theorem sweep_mem_bounds (nonneg : ∀ i j, 0 ≤ weight i j)
    (total : ∀ j, ∑ i ∈ Finset.range j, weight i j ≤ 1) (below : low ≤ 0) (above : 0 ≤ high)
    (quantised : ∀ v, first + low ≤ v → v ≤ last + high →
      low ≤ v - quantise v ∧ v - quantise v ≤ high)
    (begins : ∀ j < count, first ≤ px j ∧ px j ≤ last) :
    ∀ j < count,
      (first + low ≤ sweep quantise weight px j j ∧ sweep quantise weight px j j ≤ last + high) ∧
        low ≤ error quantise weight px j ∧ error quantise weight px j ≤ high := by
  intro j
  induction j using Nat.strongRecOn with
  | ind j inductionHypothesis =>
    intro inside
    have errors : ∀ i ∈ Finset.range j, low ≤ error quantise weight px i ∧
        error quantise weight px i ≤ high := by
      intro i among
      have early := Finset.mem_range.mp among
      exact (inductionHypothesis i early (by omega)).2
    have givenLow : low ≤ ∑ i ∈ Finset.range j, error quantise weight px i * weight i j :=
      calc low ≤ low * ∑ i ∈ Finset.range j, weight i j := by nlinarith [total j]
        _ = ∑ i ∈ Finset.range j, low * weight i j := Finset.mul_sum ..
        _ ≤ _ := Finset.sum_le_sum fun i among =>
          mul_le_mul_of_nonneg_right (errors i among).1 (nonneg i j)
    have givenHigh : ∑ i ∈ Finset.range j, error quantise weight px i * weight i j ≤ high :=
      calc ∑ i ∈ Finset.range j, error quantise weight px i * weight i j
          ≤ ∑ i ∈ Finset.range j, high * weight i j := Finset.sum_le_sum fun i among =>
            mul_le_mul_of_nonneg_right (errors i among).2 (nonneg i j)
        _ = high * ∑ i ∈ Finset.range j, weight i j := (Finset.mul_sum ..).symm
        _ ≤ high := by nlinarith [total j]
    obtain ⟨beginsLow, beginsHigh⟩ := begins j inside
    have valueLow : first + low ≤ sweep quantise weight px j j := by
      rw [sweep_eq_sum le_rfl]
      linarith
    have valueHigh : sweep quantise weight px j j ≤ last + high := by
      rw [sweep_eq_sum le_rfl]
      linarith
    exact ⟨⟨valueLow, valueHigh⟩, quantised _ valueLow valueHigh⟩

end Bounds

end CloudflareBlog.Lib.Diffusion
