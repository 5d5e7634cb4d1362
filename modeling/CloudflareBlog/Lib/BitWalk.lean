import Mathlib.Data.List.Range
import CloudflareBlog.Lib.Simd

/-!
# Walking the set bits of a mask

The loop that looks for the lowest set bit of a mask, clears it and handles its number, until the
mask is empty.  It handles the numbers of the set bits in increasing order (`walkBits_eq`).
-/

namespace CloudflareBlog.Lib.Simd

variable {width : Nat} {σ : Type*}

/-- `while (mask) { bit = ffs(mask) - 1; mask &= ~(1 << bit); … }`.  Each round clears a bit, so as
many rounds as the mask has bits are enough. -/
def walkBits (body : Nat → σ → σ) : Nat → BitVec width → σ → σ
  | 0, _, state => state
  | rounds + 1, mask, state =>
    if mask = 0 then state
    else
      let bit := ffs mask - 1
      walkBits body rounds (mask &&& ~~~BitVec.twoPow width bit) (body bit state)

/-- Handle the set bits among `count` bits from `low` on. -/
def eachBit (body : Nat → σ → σ) (mask : BitVec width) (low count : Nat) (state : σ) : σ :=
  (List.range' low count).foldl (fun state bit => if mask.getLsbD bit then body bit state else state)
    state

theorem eachBit_succ (body : Nat → σ → σ) (mask : BitVec width) (low count : Nat) (state : σ) :
    eachBit body mask low (count + 1) state =
      eachBit body mask (low + 1) count (if mask.getLsbD low then body low state else state) := by
  rw [eachBit, List.range'_succ, List.foldl_cons]
  rfl

/-- Only the bits that are looked at matter. -/
theorem eachBit_congr (body : Nat → σ → σ) {mask other : BitVec width} {low count : Nat}
    (same : ∀ bit, low ≤ bit → mask.getLsbD bit = other.getLsbD bit) (state : σ) :
    eachBit body mask low count state = eachBit body other low count state := by
  induction count generalizing low state with
  | zero => rfl
  | succ count inductionHypothesis =>
    rw [eachBit_succ, eachBit_succ, same low (Nat.le_refl _)]
    exact inductionHypothesis (fun bit above => same bit (Nat.le_of_succ_le above)) _

theorem eachBit_zero (body : Nat → σ → σ) (low count : Nat) (state : σ) :
    eachBit body (0 : BitVec width) low count state = state := by
  induction count generalizing low with
  | zero => rfl
  | succ count inductionHypothesis =>
    rw [eachBit_succ, show (0 : BitVec width).getLsbD low = false by simp, if_neg Bool.false_ne_true]
    exact inductionHypothesis (low + 1)

theorem walkBits_eq_from (body : Nat → σ → σ) {rounds count : Nat} (low : Nat)
    (whole : low + count = width)
    (enough : count ≤ rounds) (mask : BitVec width)
    (clear : ∀ bit < low, mask.getLsbD bit = false) (state : σ) :
    walkBits body rounds mask state = eachBit body mask low count state := by
  induction count generalizing low rounds mask state with
  | zero =>
    have empty : mask = 0 := by
      apply BitVec.eq_of_getLsbD_eq
      intro bit inside
      rw [clear bit (by omega)]
      simp
    subst empty
    rw [eachBit_zero]
    cases rounds with
    | zero => rfl
    | succ rounds => rw [walkBits, if_pos rfl]
  | succ count inductionHypothesis =>
    rw [eachBit_succ]
    cases lowest : mask.getLsbD low with
    | false =>
      rw [if_neg Bool.false_ne_true]
      refine inductionHypothesis (low + 1) (by omega) (by omega) mask (fun bit below => ?_) state
      obtain before | rfl := Nat.lt_succ_iff_lt_or_eq.mp below
      · exact clear bit before
      · exact lowest
    | true =>
      obtain ⟨rounds, rfl⟩ := Nat.exists_eq_add_of_le' (Nat.le_trans (Nat.succ_pos _) enough)
      have nonempty : mask ≠ 0 := by
        rintro rfl
        simp at lowest
      -- all bits below are clear, so the lowest one set is this one
      have scanned : ffs mask - 1 = low := by
        obtain ⟨-, none⟩ | ⟨bit, -, found, set, lower⟩ := ffs_cases mask
        · simp [none] at lowest
        · obtain below | rfl | above := Nat.lt_trichotomy bit low
          · simp [clear bit below] at set
          · omega
          · simp [lower low above] at lowest
      rw [walkBits, if_neg nonempty, scanned, if_pos rfl]
      simp only
      rw [inductionHypothesis (low + 1) (by omega) (by omega)]
      · refine eachBit_congr body (fun bit above => ?_) _
        rw [BitVec.getLsbD_and, BitVec.getLsbD_not, BitVec.getLsbD_twoPow]
        by_cases inside : bit < width
        · simp [inside, show low ≠ bit by omega]
        · simp [BitVec.getLsbD_of_ge mask bit (by omega)]
      · intro bit below
        rw [BitVec.getLsbD_and, BitVec.getLsbD_not, BitVec.getLsbD_twoPow]
        obtain before | rfl := Nat.lt_succ_iff_lt_or_eq.mp below
        · simp [clear bit before]
        · simp

/-- The walk handles the set bits in increasing order. -/
theorem walkBits_eq (body : Nat → σ → σ) {rounds : Nat} (enough : width ≤ rounds)
    (mask : BitVec width) (state : σ) :
    walkBits body rounds mask state = eachBit body mask 0 width state :=
  walkBits_eq_from body 0 (Nat.zero_add _) enough mask (fun _ below => absurd below (Nat.not_lt_zero _))
    state

/-- When the odd bits are clear, the walk goes over the even ones. -/
theorem eachBit_even (body : Nat → σ → σ) (mask : BitVec width)
    (odd : ∀ half, mask.getLsbD (2 * half + 1) = false) (low count : Nat) (state : σ) :
    eachBit body mask (2 * low) (2 * count) state =
      (List.range' low count).foldl
        (fun state half => if mask.getLsbD (2 * half) then body (2 * half) state else state)
        state := by
  induction count generalizing low state with
  | zero => rfl
  | succ count inductionHypothesis =>
    rw [Nat.mul_succ, eachBit_succ, eachBit_succ, odd, if_neg Bool.false_ne_true,
      List.range'_succ, List.foldl_cons]
    exact inductionHypothesis (low + 1) _

end CloudflareBlog.Lib.Simd
