import CloudflareBlog.Lib.Buffer
import CloudflareBlog.Lib.Tally
import Mathlib.Algebra.Group.Nat.Defs

/-!
# The coverage map

Behind each run `fuzznetlink` gives the trace of the kernel to AFL: a byte of the shared area counts
how often the kernel went from one position to another.  A counter that overflows goes on from 128, so
it is never zero again.
-/

namespace CloudflareBlog.KernelFuzzing

open Lib.Tally
open Lib.Buffer (Byte)

/-! ## The code -/

/-- The bytes behind `afl_area_ptr`. -/
def areaSize : Nat := 65536

/-- `__builtin_add_overflow(*s, 1, s)`, and 128 if it overflows. -/
def count (s : Byte) : Byte :=
  let sum := s + 1
  let r : Bool := s.toNat + 1 ≥ 2 ^ 8
  if r then 128 else sum

/-- The loop over the trace.  It has no result when it writes outside the area. -/
def coverLoop (hsiphash : BitVec 64 → BitVec 64) :
    List (BitVec 64) → BitVec 64 → (Nat → Byte) → Option (Nat → Byte)
  | [], _, area => some area
  | currentLoc :: rest, aflPrevLoc, area =>
    let hash := hsiphash currentLoc
    let mixed := (hash &&& 0xffff) ^^^ aflPrevLoc
    if mixed.toNat < areaSize then
      coverLoop hsiphash rest ((hash &&& 0xffff) >>> 1) (bumpAt count area mixed.toNat)
    else none

/-! ## The edges -/

/-- Each position of the trace with the one before, which the first one does not have. -/
def pairs (trace : List (BitVec 64)) : List (Option (BitVec 64) × BitVec 64) :=
  (none :: trace.map some).zip trace

/-- What the position before contributes to the index. -/
def shifted (hsiphash : BitVec 64 → BitVec 64) : Option (BitVec 64) → BitVec 64
  | none => 0
  | some loc => (hsiphash loc &&& 0xffff) >>> 1

def edge (hsiphash : BitVec 64 → BitVec 64) (pair : Option (BitVec 64) × BitVec 64) : Nat :=
  ((hsiphash pair.2 &&& 0xffff) ^^^ shifted hsiphash pair.1).toNat

/-- What a counter shows when it was hit so often. -/
def shown (hits : Nat) : Nat := if hits ≤ 255 then hits else 128 + (hits - 256) % 128

variable {hsiphash : BitVec 64 → BitVec 64}

theorem masked_lt (value : BitVec 64) : (value &&& 0xffff).toNat < 2 ^ 16 := by
  rw [BitVec.toNat_and]
  exact Nat.and_lt_two_pow _ (by decide)

theorem shifted_lt (before : Option (BitVec 64)) : (shifted hsiphash before).toNat < 2 ^ 16 := by
  cases before with
  | none =>
    show (0 : BitVec 64).toNat < 2 ^ 16
    decide
  | some loc =>
    have masked := masked_lt (hsiphash loc)
    rw [shifted, BitVec.toNat_ushiftRight, Nat.shiftRight_eq_div_pow]
    omega

theorem edge_lt (pair : Option (BitVec 64) × BitVec 64) : edge hsiphash pair < areaSize := by
  rw [edge, BitVec.toNat_xor]
  exact Nat.xor_lt_two_pow (masked_lt _) (shifted_lt _)

/-- The loop bumps the counters of the edges, one after the other. -/
theorem coverLoop_eq (trace : List (BitVec 64)) (before : Option (BitVec 64)) (area : Nat → Byte) :
    coverLoop hsiphash trace (shifted hsiphash before) area =
      some ((((before :: trace.map some).zip trace).map (edge hsiphash)).foldl (bumpAt count) area) := by
  induction trace generalizing before area with
  | nil => rfl
  | cons loc rest ih =>
    -- What is left in `afl_prev_loc` is the shifted hash of this position.
    have inside : ((hsiphash loc &&& 0xffff) ^^^ shifted hsiphash before).toNat < areaSize :=
      edge_lt (before, loc)
    rw [coverLoop, if_pos inside]
    exact ih (some loc) _

/-! ## The counters -/

theorem toNat_count (s : Byte) : (count s).toNat = if s.toNat = 255 then 128 else s.toNat + 1 := by
  have small := s.isLt
  unfold count
  by_cases full : s.toNat = 255
  · simp [full]
  · have room : ¬ s.toNat + 1 ≥ 2 ^ 8 := by omega
    simp only [room, decide_false, full, if_false, Bool.false_eq_true, BitVec.toNat_add]
    exact Nat.mod_eq_of_lt (by
      show s.toNat + 1 < 2 ^ 8
      omega)

theorem shown_of_le {hits : Nat} (few : hits ≤ 255) : shown hits = hits := if_pos few

theorem shown_add (more : Nat) : shown (256 + more) = 128 + more % 128 := by
  rw [shown, if_neg (by omega), Nat.add_sub_cancel_left]

/-- What is shown goes up to 255, and then from 128 to 255 again and again. -/
theorem shown_succ (hits : Nat) :
    shown (hits + 1) = if shown hits = 255 then 128 else shown hits + 1 := by
  obtain less | last | many : hits < 255 ∨ hits = 255 ∨ 256 ≤ hits := by omega
  · rw [shown_of_le (show hits + 1 ≤ 255 by omega), shown_of_le (show hits ≤ 255 by omega)]
    split <;> omega
  · subst last
    decide
  · obtain ⟨more, rfl⟩ := Nat.exists_eq_add_of_le many
    rw [Nat.add_assoc, shown_add, shown_add]
    split <;> omega

/-- The law of the counter, by the hits. -/
theorem toNat_iterate_count (hits : Nat) : (count^[hits] 0).toNat = shown hits := by
  induction hits with
  | zero => rfl
  | succ hits ih => rw [Function.iterate_succ_apply', toNat_count, ih, shown_succ]

theorem shown_eq_zero_iff (hits : Nat) : shown hits = 0 ↔ hits = 0 := by
  unfold shown
  split <;> omega

/-- For every trace: no index is outside the area, each byte shows how often it was hit, and it is
zero only if it never was. -/
theorem coverLoop_counts (hsiphash : BitVec 64 → BitVec 64) (trace : List (BitVec 64)) :
    ∃ area, coverLoop hsiphash trace 0 (fun _ => 0) = some area ∧
      (∀ pair ∈ pairs trace, edge hsiphash pair < areaSize) ∧
      ∀ index,
        (area index).toNat = shown (((pairs trace).map (edge hsiphash)).count index) ∧
        (area index ≠ 0 ↔ ∃ pair ∈ pairs trace, edge hsiphash pair = index) := by
  refine ⟨_, coverLoop_eq trace none _, fun pair _ => edge_lt pair, fun index => ?_⟩
  have value : (((pairs trace).map (edge hsiphash)).foldl (bumpAt count) (fun _ => 0) index).toNat =
      shown (((pairs trace).map (edge hsiphash)).count index) := by
    rw [foldl_bumpAt, toNat_iterate_count]
  refine ⟨value, ?_⟩
  rw [← List.mem_map, ← List.count_pos_iff, Nat.pos_iff_ne_zero, Ne, ← BitVec.toNat_inj,
    Ne, ← shown_eq_zero_iff]
  exact not_congr (Eq.congr_left value)

end CloudflareBlog.KernelFuzzing
