import Mathlib.Data.List.Basic

/-!
# Sinks that take a part of what they are offered

A sink is offered one piece after another and takes the beginning of each, as much as it likes.  A
sender that never offers the rest of a piece again delivers what it sent if and only if every piece
is taken whole: what is missing of one piece cannot be made up for by the others.
-/

namespace CloudflareBlog.Lib.Sink

variable {α : Type}

/-- What the sink takes of the pieces, the first of which is offered to it as the `index`-th. -/
def taken (takes : (index count : Nat) → Nat) : Nat → List (List α) → List α
  | _, [] => []
  | index, piece :: rest => piece.take (takes index piece.length) ++ taken takes (index + 1) rest

/-- The sink takes each of the pieces whole. -/
def TakesWhole (takes : (index count : Nat) → Nat) (pieces : List (List α)) : Prop :=
  ∀ index piece, pieces[index]? = some piece → piece.length ≤ takes index piece.length

variable (takes : (index count : Nat) → Nat)

theorem length_taken_le (index : Nat) (pieces : List (List α)) :
    (taken takes index pieces).length ≤ pieces.flatten.length := by
  induction pieces generalizing index with
  | nil => simp [taken]
  | cons piece rest inductionHypothesis =>
    have later := inductionHypothesis (index + 1)
    simp only [taken, List.flatten_cons, List.length_append, List.length_take]
    omega

/-- The beginning of a piece and then no more than what was offered behind it: this is everything
only if it is the piece and what was offered behind it. -/
theorem take_append_eq_iff {piece rest later : List α} {count : Nat}
    (bounded : rest.length ≤ later.length) :
    piece.take count ++ rest = piece ++ later ↔ piece.length ≤ count ∧ rest = later := by
  constructor
  · intro same
    have lengths := congrArg List.length same
    simp only [List.length_append, List.length_take] at lengths
    have whole : piece.length ≤ count := by omega
    rw [List.take_of_length_le whole] at same
    exact ⟨whole, List.append_cancel_left same⟩
  · rintro ⟨whole, rfl⟩
    rw [List.take_of_length_le whole]

theorem taken_eq_flatten_iff_from (start : Nat) (pieces : List (List α)) :
    taken takes start pieces = pieces.flatten ↔
      ∀ index piece, pieces[index]? = some piece →
        piece.length ≤ takes (start + index) piece.length := by
  induction pieces generalizing start with
  | nil => simp [taken]
  | cons piece rest inductionHypothesis =>
    rw [taken, List.flatten_cons, take_append_eq_iff (length_taken_le takes (start + 1) rest),
      inductionHypothesis (start + 1)]
    constructor
    · rintro ⟨first, others⟩ index other there
      cases index with
      | zero =>
        obtain rfl : piece = other := by simpa using there
        exact first
      | succ index =>
        have := others index other (by simpa using there)
        rwa [Nat.add_assoc, Nat.add_comm 1 index] at this
    · intro all
      refine ⟨all 0 piece rfl, fun index other there => ?_⟩
      have := all (index + 1) other (by simpa using there)
      rwa [← Nat.add_assoc, Nat.add_right_comm] at this

/-- Everything offered is taken if and only if every piece is taken whole. -/
theorem taken_eq_flatten_iff (pieces : List (List α)) :
    taken takes 0 pieces = pieces.flatten ↔ TakesWhole takes pieces := by
  rw [taken_eq_flatten_iff_from, TakesWhole]
  simp only [Nat.zero_add]

end CloudflareBlog.Lib.Sink
