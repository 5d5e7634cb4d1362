import Mathlib.Data.List.Nodup
import Mathlib.Data.List.Range
import Mathlib.Tactic.Ring

/-!
# Scans that wrap around

The integers from `lo` to `hi`, visited upwards from one of them and then from `lo` on: every one is
visited once, wherever the scan starts.
-/

namespace CloudflareBlog.Lib.CircularScan

/-- The integer at distance `off` from the start. -/
def visit (lo hi start off : Int) : Int :=
  if hi < start + off then start + off - (hi + 1) + lo else start + off

/-- The `count` integers from distance `off` on. -/
def circuit (lo hi start : Int) : Int → Nat → List Int
  | _, 0 => []
  | off, count + 1 => visit lo hi start off :: circuit lo hi start (off + 1) count

/-- The circuit that comes back to where it started. -/
def fullRound (lo hi start : Int) : List Int := circuit lo hi start 0 (hi + 1 - lo).toNat

variable {lo hi start : Int}

theorem visit_bounds (low : lo ≤ start) (high : start ≤ hi) {off : Int} (nonnegative : 0 ≤ off)
    (inside : off < hi + 1 - lo) : lo ≤ visit lo hi start off ∧ visit lo hi start off ≤ hi := by
  rw [visit]
  split <;> omega

theorem mem_circuit {off p : Int} {count : Nat} :
    p ∈ circuit lo hi start off count ↔
      ∃ k : Int, off ≤ k ∧ k < off + count ∧ visit lo hi start k = p := by
  induction count generalizing off with
  | zero =>
    simp only [circuit, List.not_mem_nil, false_iff]
    rintro ⟨k, above, below, -⟩
    omega
  | succ count inductionHypothesis =>
    rw [circuit, List.mem_cons, inductionHypothesis]
    constructor
    · rintro (rfl | ⟨k, above, below, same⟩)
      · exact ⟨off, le_refl off, by omega, rfl⟩
      · exact ⟨k, by omega, by omega, same⟩
    · rintro ⟨k, above, below, same⟩
      by_cases here : k = off
      · exact .inl (here ▸ same.symm)
      · exact .inr ⟨k, by omega, by omega, same⟩

/-- Within a round, different distances lead to different integers. -/
theorem nodup_circuit (low : lo ≤ start) (high : start ≤ hi) {off : Int} {count : Nat}
    (nonnegative : 0 ≤ off) (round : off + count ≤ hi + 1 - lo) :
    (circuit lo hi start off count).Nodup := by
  induction count generalizing off with
  | zero => exact List.nodup_nil
  | succ count inductionHypothesis =>
    rw [circuit, List.nodup_cons, mem_circuit]
    refine ⟨?_, inductionHypothesis (by omega) (by omega)⟩
    rintro ⟨k, above, below, same⟩
    simp only [visit] at same
    split at same <;> split at same <;> omega

theorem nodup_fullRound (low : lo ≤ start) (high : start ≤ hi) : (fullRound lo hi start).Nodup :=
  nodup_circuit low high (le_refl 0) (by omega)

theorem mem_fullRound (low : lo ≤ start) (high : start ≤ hi) {p : Int} :
    p ∈ fullRound lo hi start ↔ lo ≤ p ∧ p ≤ hi := by
  rw [fullRound, mem_circuit]
  constructor
  · rintro ⟨k, above, below, rfl⟩
    exact visit_bounds low high above (by omega)
  · rintro ⟨above, below⟩
    by_cases before : p < start
    · refine ⟨p + (hi + 1 - lo) - start, by omega, by omega, ?_⟩
      rw [visit, if_pos (by omega)]
      omega
    · refine ⟨p - start, by omega, by omega, ?_⟩
      rw [visit, if_neg (by omega)]
      omega

end CloudflareBlog.Lib.CircularScan
