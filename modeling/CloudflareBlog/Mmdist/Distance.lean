import Mathlib.Algebra.BigOperators.Group.Finset.Basic
import Mathlib.Algebra.Order.BigOperators.Group.Finset
import CloudflareBlog.Lib.Avx2

/-!
# The distances of mmdist

The squared Euclidean distance of two byte vectors, as a loop in 32-bit arithmetic (`distance`) and
with AVX2, sixteen bytes a round (`distanceAvx2`).  Both are the distance over the integers: no lane
overflows for vectors of up to 144 bytes.
-/

namespace CloudflareBlog.Mmdist

open CloudflareBlog.Lib.Buffer CloudflareBlog.Lib.Simd

/-- The squared Euclidean distance of the first `len` bytes, over the integers. -/
def squaredDistance (a b : Nat → Byte) (len : Nat) : Nat :=
  ∑ i ∈ Finset.range len, squaredDifference (a i) (b i)

/-- `distance`: `d` after `len` rounds. -/
def distance (a b : Nat → Byte) : Nat → BitVec 32
  | 0 => 0
  | i + 1 =>
    let t := ((a i).setWidth 16).setWidth 32 - ((b i).setWidth 16).setWidth 32
    distance a b i + t * t

/-- `full_distance` of `mmdist-naive.c`. -/
def fullDistance (a b : Nat → Byte) : BitVec 32 := distance a b 144

/-- `sum` after some rounds of `distance_avx2`. -/
def sumAvx2 (a b : Nat → Byte) : Nat → Lanes 8 32
  | 0 => setzero
  | round + 1 =>
    let d := sub (cvtepu8 (loadu a (16 * round))) (cvtepu8 (loadu b (16 * round)))
    add (sumAvx2 a b round) (madd d d)

/-- `distance_avx2`.  The loop goes over the vectors in steps of 16. -/
def distanceAvx2 (a b : Nat → Byte) (len : Nat) : BitVec 32 :=
  let e := sumAvx2 a b ((len + 15) / 16)
  let e := hadd e setzero
  let e := hadd e setzero
  e 0 + e 4

def fullDistanceAvx2 (a b : Nat → Byte) : BitVec 32 := distanceAvx2 a b 144

/-! ## The distance over the integers -/

theorem squaredDistance_succ (a b : Nat → Byte) (len : Nat) :
    squaredDistance a b (len + 1) = squaredDistance a b len + squaredDifference (a len) (b len) :=
  Finset.sum_range_succ _ _

theorem squaredDistance_le (a b : Nat → Byte) (len : Nat) :
    squaredDistance a b len ≤ len * 65025 := by
  induction len with
  | zero =>
    rw [squaredDistance, Finset.sum_range_zero]
    exact Nat.zero_le _
  | succ len inductionHypothesis =>
    have last := squaredDifference_le (a len) (b len)
    rw [squaredDistance_succ]
    omega

theorem squaredDistance_add (a b : Nat → Byte) (first second : Nat) :
    squaredDistance a b (first + second) = squaredDistance a b first +
      squaredDistance (fun i => a (first + i)) (fun i => b (first + i)) second :=
  Finset.sum_range_add _ _ _

theorem squaredDistance_mono (a b : Nat → Byte) {first second : Nat} (le : first ≤ second) :
    squaredDistance a b first ≤ squaredDistance a b second := by
  obtain ⟨rest, rfl⟩ := Nat.exists_eq_add_of_le le
  rw [squaredDistance_add]
  exact Nat.le_add_right _ _

theorem squaredDistance_congr {a b a' b' : Nat → Byte} {len : Nat}
    (sameLeft : ∀ i < len, a i = a' i) (sameRight : ∀ i < len, b i = b' i) :
    squaredDistance a b len = squaredDistance a' b' len :=
  Finset.sum_congr rfl fun i inside => by
    rw [sameLeft i (Finset.mem_range.mp inside), sameRight i (Finset.mem_range.mp inside)]

/-! ## The loops compute it -/

theorem toNat_distance (a b : Nat → Byte) (len : Nat) (short : len ≤ 144) :
    (distance a b len).toNat = squaredDistance a b len := by
  induction len with
  | zero => rfl
  | succ len inductionHypothesis =>
    have widened (x : Byte) : (x.setWidth 16).setWidth 32 = x.setWidth 32 := by
      have := x.isLt
      apply BitVec.eq_of_toNat_eq
      simp only [BitVec.toNat_setWidth]
      omega
    have earlier := squaredDistance_le a b len
    have last := squaredDifference_le (a len) (b len)
    simp only [distance, widened]
    rw [BitVec.toNat_add, inductionHypothesis (by omega), toNat_square (by decide),
      squaredDistance_succ, Nat.mod_eq_of_lt (by omega)]

/-- What a lane of `sum` holds after some rounds. -/
def laneSum (a b : Nat → Byte) (rounds lane : Nat) : Nat :=
  ∑ round ∈ Finset.range rounds,
    (squaredDifference (a (16 * round + 2 * lane)) (b (16 * round + 2 * lane)) +
      squaredDifference (a (16 * round + 2 * lane + 1)) (b (16 * round + 2 * lane + 1)))

theorem laneSum_succ (a b : Nat → Byte) (rounds lane : Nat) :
    laneSum a b (rounds + 1) lane = laneSum a b rounds lane +
      (squaredDifference (a (16 * rounds + 2 * lane)) (b (16 * rounds + 2 * lane)) +
        squaredDifference (a (16 * rounds + 2 * lane + 1)) (b (16 * rounds + 2 * lane + 1))) :=
  Finset.sum_range_succ _ _

theorem laneSum_le (a b : Nat → Byte) (rounds lane : Nat) :
    laneSum a b rounds lane ≤ rounds * 130050 := by
  induction rounds with
  | zero =>
    rw [laneSum, Finset.sum_range_zero]
    exact Nat.zero_le _
  | succ rounds inductionHypothesis =>
    have first := squaredDifference_le (a (16 * rounds + 2 * lane)) (b (16 * rounds + 2 * lane))
    have second := squaredDifference_le (a (16 * rounds + 2 * lane + 1))
      (b (16 * rounds + 2 * lane + 1))
    rw [laneSum_succ]
    omega

theorem toNat_sumAvx2 (a b : Nat → Byte) (rounds : Nat) (short : rounds ≤ 9) (lane : Fin 8) :
    (sumAvx2 a b rounds lane).toNat = laneSum a b rounds lane := by
  induction rounds with
  | zero => rfl
  | succ rounds inductionHypothesis =>
    have bound := laneSum_le a b (rounds + 1) lane
    rw [laneSum_succ] at bound
    simp only [sumAvx2, add]
    rw [BitVec.toNat_add, inductionHypothesis (by omega), toNat_madd_sub, laneSum_succ]
    simp only [loadu, ← Nat.add_assoc]
    exact Nat.mod_eq_of_lt (by omega)

theorem sum_pairs (f : Nat → Nat) (count : Nat) :
    ∑ lane ∈ Finset.range count, (f (2 * lane) + f (2 * lane + 1)) =
      ∑ i ∈ Finset.range (2 * count), f i := by
  induction count with
  | zero => rfl
  | succ count inductionHypothesis =>
    rw [Finset.sum_range_succ, inductionHypothesis, Nat.mul_succ, Finset.sum_range_succ,
      Finset.sum_range_succ, Nat.add_assoc]

theorem sum_laneSum (a b : Nat → Byte) (rounds : Nat) :
    ∑ lane ∈ Finset.range 8, laneSum a b rounds lane = squaredDistance a b (16 * rounds) := by
  induction rounds with
  | zero => rfl
  | succ rounds inductionHypothesis =>
    have block := sum_pairs (fun i =>
      squaredDifference (a (16 * rounds + i)) (b (16 * rounds + i))) 8
    rw [Nat.mul_succ, squaredDistance_add, ← inductionHypothesis, squaredDistance, ← block,
      ← Finset.sum_add_distrib]
    exact Finset.sum_congr rfl fun lane _ => laneSum_succ a b rounds lane

theorem hadd_hadd (sum : Lanes 8 32) :
    hadd (hadd sum setzero) setzero 0 = sum 0 + sum 1 + (sum 2 + sum 3) ∧
      hadd (hadd sum setzero) setzero 4 = sum 4 + sum 5 + (sum 6 + sum 7) :=
  ⟨rfl, rfl⟩

theorem toNat_distanceAvx2 (a b : Nat → Byte) (rounds : Nat) (short : rounds ≤ 9) :
    (distanceAvx2 a b (16 * rounds)).toNat = squaredDistance a b (16 * rounds) := by
  have bound := squaredDistance_le a b (16 * rounds)
  have total := sum_laneSum a b rounds
  simp only [Finset.sum_range_succ, Finset.sum_range_zero] at total
  have lanes := toNat_sumAvx2 a b rounds short
  have lane0 : (sumAvx2 a b rounds 0).toNat = laneSum a b rounds 0 := lanes 0
  have lane1 : (sumAvx2 a b rounds 1).toNat = laneSum a b rounds 1 := lanes 1
  have lane2 : (sumAvx2 a b rounds 2).toNat = laneSum a b rounds 2 := lanes 2
  have lane3 : (sumAvx2 a b rounds 3).toNat = laneSum a b rounds 3 := lanes 3
  have lane4 : (sumAvx2 a b rounds 4).toNat = laneSum a b rounds 4 := lanes 4
  have lane5 : (sumAvx2 a b rounds 5).toNat = laneSum a b rounds 5 := lanes 5
  have lane6 : (sumAvx2 a b rounds 6).toNat = laneSum a b rounds 6 := lanes 6
  have lane7 : (sumAvx2 a b rounds 7).toNat = laneSum a b rounds 7 := lanes 7
  simp only [distanceAvx2]
  rw [show (16 * rounds + 15) / 16 = rounds by omega, (hadd_hadd _).1, (hadd_hadd _).2]
  simp only [BitVec.toNat_add, lane0, lane1, lane2, lane3, lane4, lane5, lane6, lane7]
  omega

theorem toNat_fullDistance (a b : Nat → Byte) :
    (fullDistance a b).toNat = squaredDistance a b 144 :=
  toNat_distance a b 144 (Nat.le_refl _)

theorem toNat_fullDistanceAvx2 (a b : Nat → Byte) :
    (fullDistanceAvx2 a b).toNat = squaredDistance a b 144 :=
  toNat_distanceAvx2 a b 9 (Nat.le_refl _)

/-! ## No lane overflows -/

/-- Every lane in `full_distance_avx2`, as a signed number, is what it stands for over the
integers. -/
structure LanesExact (a b : Nat → Byte) : Prop where
  differences : ∀ round < 9, ∀ lane : Fin 16,
    (sub (cvtepu8 (loadu a (16 * round))) (cvtepu8 (loadu b (16 * round))) lane).toInt =
      ((a (16 * round + lane)).toNat : Int) - (b (16 * round + lane)).toNat
  squares : ∀ round < 9, ∀ lane : Fin 8,
    let d := sub (cvtepu8 (loadu a (16 * round))) (cvtepu8 (loadu b (16 * round)))
    (madd d d lane).toInt =
      (squaredDifference (a (16 * round + 2 * lane)) (b (16 * round + 2 * lane)) +
        squaredDifference (a (16 * round + 2 * lane + 1)) (b (16 * round + 2 * lane + 1)) : Nat)
  sums : ∀ rounds ≤ 9, ∀ lane : Fin 8,
    (sumAvx2 a b rounds lane).toInt = laneSum a b rounds lane
  pairs : ∀ half < 2, ∀ lane < 2, ∀ (bound : 4 * half + lane < 8),
    (hadd (sumAvx2 a b 9) setzero ⟨4 * half + lane, bound⟩).toInt =
      (laneSum a b 9 (4 * half + 2 * lane) + laneSum a b 9 (4 * half + 2 * lane + 1) : Nat)
  quads : ∀ half < 2, ∀ (bound : 4 * half < 8),
    (hadd (hadd (sumAvx2 a b 9) setzero) setzero ⟨4 * half, bound⟩).toInt =
      (laneSum a b 9 (4 * half) + laneSum a b 9 (4 * half + 1) +
        (laneSum a b 9 (4 * half + 2) + laneSum a b 9 (4 * half + 3)) : Nat)
  total : (fullDistanceAvx2 a b).toInt = squaredDistance a b 144

theorem toInt_of_small {x : BitVec 32} {n : Nat} (same : x.toNat = n) (small : n < 2 ^ 31) :
    x.toInt = n := by
  rw [BitVec.toInt_eq_toNat_of_lt (by omega), same]

theorem toNat_hadd {x : Lanes 8 32} (half lane : Nat) (bound : 4 * half + lane < 8)
    (near : lane < 2) {first second : Nat}
    (isFirst : (x ⟨4 * half + 2 * lane, by omega⟩).toNat = first)
    (isSecond : (x ⟨4 * half + 2 * lane + 1, by omega⟩).toNat = second)
    (room : first + second < 2 ^ 31) :
    (hadd x setzero ⟨4 * half + lane, bound⟩).toNat = first + second := by
  have source : (4 * half + lane) % 4 < 2 := by omega
  have index : 4 * ((4 * half + lane) / 4) + 2 * ((4 * half + lane) % 2) = 4 * half + 2 * lane := by
    omega
  simp only [hadd, if_pos source, index, BitVec.toNat_add, isFirst, isSecond]
  omega

theorem lanes_exact (a b : Nat → Byte) : LanesExact a b where
  differences round _ lane := toInt_sub_setWidth (by decide) _ _
  squares round _ lane := by
    have first := squaredDifference_le (a (16 * round + 2 * lane)) (b (16 * round + 2 * lane))
    have second := squaredDifference_le (a (16 * round + 2 * lane + 1))
      (b (16 * round + 2 * lane + 1))
    refine toInt_of_small ?_ (by omega)
    rw [toNat_madd_sub]
    simp only [loadu, ← Nat.add_assoc]
  sums rounds few lane := by
    have bound := laneSum_le a b rounds lane
    exact toInt_of_small (toNat_sumAvx2 a b rounds few lane) (by omega)
  -- each addition is of two sums whose bounds leave it below `2^31`
  pairs half _ lane near bound := by
    have first := laneSum_le a b 9 (4 * half + 2 * lane)
    have second := laneSum_le a b 9 (4 * half + 2 * lane + 1)
    exact toInt_of_small (toNat_hadd half lane bound near (toNat_sumAvx2 a b 9 (Nat.le_refl _) _)
      (toNat_sumAvx2 a b 9 (Nat.le_refl _) _) (by omega)) (by omega)
  quads half _ bound := by
    have lane0 := laneSum_le a b 9 (4 * half)
    have lane1 := laneSum_le a b 9 (4 * half + 1)
    have lane2 := laneSum_le a b 9 (4 * half + 2)
    have lane3 := laneSum_le a b 9 (4 * half + 3)
    have lanes (lane : Nat) (inside : lane < 8) :
        (sumAvx2 a b 9 ⟨lane, inside⟩).toNat = laneSum a b 9 lane :=
      toNat_sumAvx2 a b 9 (Nat.le_refl _) ⟨lane, inside⟩
    have first := toNat_hadd half 0 (by omega) (by omega) (lanes (4 * half) (by omega))
      (lanes (4 * half + 1) (by omega)) (by omega)
    have second := toNat_hadd half 1 (by omega) (by omega) (lanes (4 * half + 2) (by omega))
      (lanes (4 * half + 3) (by omega)) (by omega)
    exact toInt_of_small (toNat_hadd half 0 bound (by omega) first second (by omega)) (by omega)
  total := by
    have bound := squaredDistance_le a b 144
    exact toInt_of_small (toNat_fullDistanceAvx2 a b) (by omega)

end CloudflareBlog.Mmdist
