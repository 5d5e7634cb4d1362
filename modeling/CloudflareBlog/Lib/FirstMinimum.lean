import Mathlib.Order.Lattice

/-!
# The first minimum of a sequence, below a limit

What a search for the least of the costs `cost 0, cost 1, …` knows after the first `count` of them:
the best cost so far and where it was met first, or the limit and no position when no cost was below
it.  A cost that is not below the best may be skipped (`skip`), and one that is replaces it (`take`);
a search may decide between the two in any way that agrees with this.
-/

namespace CloudflareBlog.Lib

variable {κ : Type*} [LinearOrder κ]

inductive FirstMinimum (cost : Nat → κ) (limit : κ) (count : Nat) : κ → Option Nat → Prop
  | absent (above : ∀ index < count, limit ≤ cost index) :
      FirstMinimum cost limit count limit none
  | found (position : Nat) (inside : position < count) (below : cost position < limit)
      (least : ∀ index < count, cost position ≤ cost index)
      (first : ∀ index < position, cost position < cost index) :
      FirstMinimum cost limit count (cost position) (some position)

namespace FirstMinimum

variable {cost : Nat → κ} {limit best : κ} {count : Nat} {index : Option Nat}

theorem start (cost : Nat → κ) (limit : κ) : FirstMinimum cost limit 0 limit none :=
  .absent fun _ inside => absurd inside (Nat.not_lt_zero _)

theorem best_le_limit (known : FirstMinimum cost limit count best index) : best ≤ limit := by
  cases known with
  | absent above => exact le_refl _
  | found position inside below least first => exact le_of_lt below

theorem best_le (known : FirstMinimum cost limit count best index) (position : Nat)
    (inside : position < count) : best ≤ cost position := by
  cases known with
  | absent above => exact above position inside
  | found _ _ _ least _ => exact least position inside

theorem skip (known : FirstMinimum cost limit count best index) (above : best ≤ cost count) :
    FirstMinimum cost limit (count + 1) best index := by
  cases known with
  | absent earlier =>
    refine .absent fun index inside => ?_
    obtain before | rfl := Nat.lt_succ_iff_lt_or_eq.mp inside
    · exact earlier index before
    · exact above
  | found position inside below least first =>
    refine .found position (Nat.lt_succ_of_lt inside) below (fun index reached => ?_) first
    obtain before | rfl := Nat.lt_succ_iff_lt_or_eq.mp reached
    · exact least index before
    · exact above

theorem take (known : FirstMinimum cost limit count best index) (below : cost count < best) :
    FirstMinimum cost limit (count + 1) (cost count) (some count) := by
  refine .found count (Nat.lt_succ_self _) (lt_of_lt_of_le below known.best_le_limit)
    (fun index inside => ?_) (fun index before => lt_of_lt_of_le below (known.best_le index before))
  obtain before | rfl := Nat.lt_succ_iff_lt_or_eq.mp inside
  · exact le_of_lt (lt_of_lt_of_le below (known.best_le index before))
  · exact le_refl _

end FirstMinimum

end CloudflareBlog.Lib
