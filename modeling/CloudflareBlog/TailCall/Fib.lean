import Mathlib.Data.BitVec
import Mathlib.Data.Nat.Fib.Basic

/-!
# Fibonacci numbers, with and without a call in tail position

`fib_okay.c` calls itself twice and adds the results, `fib_cool.c` calls itself as the last thing it
does.  The argument is a `uint64_t` that never falls below zero, so it is a natural number here; the
sums are taken modulo 2^64.
-/

namespace CloudflareBlog.TailCall

abbrev U64 := BitVec 64

/-- `fib` of `fib_okay.c`. -/
def fib : Nat → U64
  | 0 => 1
  | 1 => 1
  | n + 2 => fib (n + 1) + fib n

def fibTail : Nat → U64 → U64 → U64
  | 0, a, _ => a
  | 1, _, b => b
  | n + 2, a, b => fibTail (n + 1) b (a + b)

/-- `fib` of `fib_cool.c`. -/
def fibCool (n : Nat) : U64 := fibTail n 1 1

theorem fib_succ {n : Nat} (positive : 1 ≤ n) : fib (n + 1) = fib n + fib (n - 1) := by
  obtain ⟨m, rfl⟩ : ∃ m, n = m + 1 := ⟨n - 1, by omega⟩
  rfl

theorem fib_of_le_one {n : Nat} (small : n ≤ 1) : fib n = 1 := by
  obtain rfl | rfl : n = 0 ∨ n = 1 := by omega
  · rfl
  · rfl

theorem fib_eq (n : Nat) : fib n = BitVec.ofNat 64 (Nat.fib (n + 1)) := by
  induction n using fib.induct with
  | case1 => rfl
  | case2 => rfl
  | case3 n first second =>
    rw [fib, first, second, ← BitVec.ofNat_add, Nat.fib_add_two (n := n + 1), Nat.add_comm]

/-- The two arguments are neighbours in the sequence, and stay so. -/
theorem fibTail_eq (n k : Nat) : fibTail n (fib k) (fib (k + 1)) = fib (n + k) := by
  induction n using Nat.strong_induction_on generalizing k with
  | _ n inductionHypothesis =>
    match n with
    | 0 => rw [fibTail, Nat.zero_add]
    | 1 => rw [fibTail, Nat.add_comm]
    | n + 2 =>
      have sum : fib k + fib (k + 1) = fib (k + 1 + 1) := by rw [fib, BitVec.add_comm]
      rw [fibTail, sum, inductionHypothesis (n + 1) (by omega) (k + 1)]
      congr 1
      omega

/-- The two functions agree on every argument, also where the sums wrap around. -/
theorem fibCool_eq (n : Nat) : fibCool n = fib n := fibTail_eq n 0

end CloudflareBlog.TailCall
