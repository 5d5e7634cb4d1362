import Mathlib.Algebra.GroupWithZero.Nat
import Mathlib.Order.Lattice.Nat

/-!
# Cutting an amount into pieces

An amount is cut into pieces of a given size, of which the last one may be less, in no more than a
given number of rounds.  The pieces come to the amount if the rounds are enough for it.
-/

namespace CloudflareBlog.Lib.Pieces

/-- The pieces, where each round cuts off one of them. -/
def cut (size : Nat) : Nat → Nat → List Nat
  | 0, _ => []
  | rounds + 1, amount =>
    if amount ≤ size then [amount] else size :: cut size rounds (amount - size)

variable {size rounds amount : Nat}

theorem cut_of_le (fits : amount ≤ size) : cut size (rounds + 1) amount = [amount] := if_pos fits

theorem cut_of_lt (exceeds : size < amount) :
    cut size (rounds + 1) amount = size :: cut size rounds (amount - size) :=
  if_neg (Nat.not_le.mpr exceeds)

theorem le_of_mem_cut {piece : Nat} (among : piece ∈ cut size rounds amount) : piece ≤ size := by
  induction rounds generalizing amount with
  | zero => cases among
  | succ rounds inductionHypothesis =>
    obtain fits | exceeds := le_or_gt amount size
    · rw [cut_of_le fits, List.mem_singleton] at among
      rw [among]
      exact fits
    · rw [cut_of_lt exceeds] at among
      cases List.mem_cons.mp among with
      | inl same => exact Nat.le_of_eq same
      | inr later => exact inductionHypothesis later

/-- The pieces come to the amount, or to what the rounds can cut off. -/
theorem sum_cut (size rounds amount : Nat) :
    (cut size rounds amount).sum = min amount (rounds * size) := by
  induction rounds generalizing amount with
  | zero =>
    rw [cut, Nat.zero_mul]
    exact (Nat.min_zero amount).symm
  | succ rounds inductionHypothesis =>
    rw [Nat.succ_mul]
    obtain fits | exceeds := le_or_gt amount size
    · rw [cut_of_le fits, List.sum_singleton]
      omega
    · rw [cut_of_lt exceeds, List.sum_cons, inductionHypothesis]
      omega

theorem length_cut_le (size rounds amount : Nat) : (cut size rounds amount).length ≤ rounds := by
  induction rounds generalizing amount with
  | zero => exact Nat.le_refl _
  | succ rounds inductionHypothesis =>
    obtain fits | exceeds := le_or_gt amount size
    · rw [cut_of_le fits]
      exact Nat.succ_le_succ (Nat.zero_le _)
    · rw [cut_of_lt exceeds]
      exact Nat.succ_le_succ (inductionHypothesis _)

/-- No round is made for nothing: pieces that would do for the amount are as many at least. -/
theorem length_cut_le_of_le {enough : Nat} (positive : 0 < enough) (does : amount ≤ enough * size) :
    (cut size rounds amount).length ≤ enough := by
  induction rounds generalizing amount enough with
  | zero => exact Nat.zero_le _
  | succ rounds inductionHypothesis =>
    obtain fits | exceeds := le_or_gt amount size
    · rw [cut_of_le fits]
      exact positive
    · obtain ⟨more, rfl⟩ := Nat.exists_eq_add_of_lt positive
      rw [Nat.zero_add, Nat.succ_mul] at does
      -- one piece is not enough, so that there is a round left for the rest
      have left : 0 < more := by
        apply Nat.pos_of_ne_zero
        rintro rfl
        rw [Nat.zero_mul] at does
        omega
      rw [cut_of_lt exceeds, List.length_cons, Nat.zero_add]
      exact Nat.succ_le_succ (inductionHypothesis left (by omega))

end CloudflareBlog.Lib.Pieces
