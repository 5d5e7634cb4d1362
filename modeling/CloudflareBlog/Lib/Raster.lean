import Mathlib.Data.List.Basic

/-!
# Nested loops

A loop in a loop, as a single one: the turn number `s` is the inner turn `s % columns` of the outer
turn `s / columns`.
-/

namespace CloudflareBlog.Lib.Raster

variable {β : Type*} {row column columns : Nat}

theorem div_columns (inside : column < columns) : (row * columns + column) / columns = row := by
  rw [Nat.mul_comm, Nat.mul_add_div (by omega), Nat.div_eq_of_lt inside, Nat.add_zero]

theorem mod_columns (inside : column < columns) : (row * columns + column) % columns = column := by
  rw [Nat.mul_add_mod', Nat.mod_eq_of_lt inside]

theorem index_lt {rows : Nat} (inRows : row < rows) (inside : column < columns) :
    row * columns + column < rows * columns := by
  have whole : (row + 1) * columns ≤ rows * columns := Nat.mul_le_mul_right _ inRows
  rw [Nat.succ_mul] at whole
  omega

theorem flatMap_range (f : Nat → Nat → β) (rows columns : Nat) :
    ((List.range rows).flatMap fun row => (List.range columns).map (f row)) =
      (List.range (rows * columns)).map fun s => f (s / columns) (s % columns) := by
  induction rows with
  | zero => simp
  | succ rows inductionHypothesis =>
    rw [List.range_succ, List.flatMap_append, inductionHypothesis, List.flatMap_singleton,
      Nat.succ_mul, List.range_add, List.map_append, List.map_map]
    congr 1
    apply List.map_congr_left
    intro column among
    have inside := List.mem_range.mp among
    rw [Function.comp_apply, div_columns inside, mod_columns inside]

/-- The same when the outer loop counts down. -/
theorem flatMap_reverse_range (f : Nat → Nat → β) (rows columns : Nat) :
    ((List.range rows).reverse.flatMap fun row => (List.range columns).map (f row)) =
      (List.range (rows * columns)).map fun s => f (rows - 1 - s / columns) (s % columns) := by
  have turned : (List.range rows).reverse = (List.range rows).map (rows - 1 - ·) := by
    apply List.ext_getElem (by simp)
    simp
  rw [turned, List.flatMap_map, flatMap_range fun row column => f (rows - 1 - row) column]

end CloudflareBlog.Lib.Raster
