import Mathlib.Data.BitVec
import CloudflareBlog.Lib.Buffer

/-!
# SIMD registers

A register as its lanes, lane 0 in the lowest bits, and the SSE and AVX2 operations on it that act
lane by lane.  An operation keeps the name of its intrinsic without prefix and lane suffix: the
suffix is the type.  Masks read back from a register are bit vectors, scanned with `ffs`.
-/

namespace CloudflareBlog.Lib.Simd

open CloudflareBlog.Lib.Buffer

abbrev Lanes (count width : Nat) := Fin count → BitVec width

variable {count width : Nat}

def set1 (value : BitVec width) : Lanes count width := fun _ => value

def setzero : Lanes count width := fun _ => 0

/-- `_mm_loadu_si128` and `_mm_load_si128`: sixteen bytes from `address` on. -/
def loadu (memory : Nat → Byte) (address : Nat) : Lanes 16 8 := fun lane => memory (address + lane)

def and (a b : Lanes count width) : Lanes count width := fun lane => a lane &&& b lane

def xor (a b : Lanes count width) : Lanes count width := fun lane => a lane ^^^ b lane

/-- All ones where the lane of `a` is greater as a signed number. -/
def cmpgt (a b : Lanes count width) : Lanes count width := fun lane =>
  if (b lane).slt (a lane) then BitVec.allOnes width else 0

/-- All ones where the lanes are equal. -/
def cmpeq (a b : Lanes count width) : Lanes count width := fun lane =>
  if a lane = b lane then BitVec.allOnes width else 0

/-- The top bit of every lane. -/
def movemask (a : Lanes count width) : BitVec count :=
  (List.finRange count).foldr
    (fun lane mask => mask ||| if (a lane).msb then BitVec.twoPow count lane else 0) 0

/-- One more than the position of the lowest set bit, and 0 when there is none. -/
def ffs (mask : BitVec width) : Nat := if mask = 0 then 0 else mask.ctz.toNat + 1

/-- The 64-bit half `index` of a register of bytes, as a number. -/
def half (a : Lanes 16 8) (index : Fin 2) : BitVec 64 :=
  let byte (k : Nat) (bound : k < 8) : BitVec 64 := (a ⟨8 * index + k, by omega⟩).setWidth 64 <<< (8 * k)
  byte 0 (by omega) ||| byte 1 (by omega) ||| byte 2 (by omega) ||| byte 3 (by omega) |||
    byte 4 (by omega) ||| byte 5 (by omega) ||| byte 6 (by omega) ||| byte 7 (by omega)

/-- The register of bytes with the given halves: `_mm_set_epi64x(high, low)`. -/
def setEpi64x (high low : BitVec 64) : Lanes 16 8 := fun lane =>
  if lane.val < 8 then low.extractLsb' (8 * lane) 8 else high.extractLsb' (8 * (lane - 8)) 8

/-- Bit `bit` of a half is bit `bit % 8` of its byte `bit / 8`. -/
theorem getLsbD_half (a : Lanes 16 8) (index : Fin 2) {bit : Nat} (inside : bit < 64) :
    (half a index).getLsbD bit = (a ⟨8 * index + bit / 8, by omega⟩).getLsbD (bit % 8) := by
  have byte (k : Nat) (bound : k < 8) :
      ((a ⟨8 * index + k, by omega⟩).setWidth 64 <<< (8 * k)).getLsbD bit =
        (decide (k = bit / 8) && (a ⟨8 * index + bit / 8, by omega⟩).getLsbD (bit % 8)) := by
    rw [BitVec.getLsbD_shiftLeft, BitVec.getLsbD_setWidth]
    by_cases here : k = bit / 8
    · subst here
      simp [inside, show ¬ bit < 8 * (bit / 8) by omega, show bit - 8 * (bit / 8) = bit % 8 by omega,
        show bit % 8 < 64 by omega]
    · by_cases below : bit < 8 * k
      · simp [here, below]
      · rw [BitVec.getLsbD_of_ge _ (bit - 8 * k) (by omega)]
        simp [here]
  have one : (decide (0 = bit / 8) || decide (1 = bit / 8) || decide (2 = bit / 8) ||
      decide (3 = bit / 8) || decide (4 = bit / 8) || decide (5 = bit / 8) ||
      decide (6 = bit / 8) || decide (7 = bit / 8)) = true := by
    simp only [Bool.or_eq_true, decide_eq_true_eq]
    omega
  rw [half]
  repeat rw [BitVec.getLsbD_or]
  rw [byte 0 (by decide), byte 1 (by decide), byte 2 (by decide), byte 3 (by decide),
    byte 4 (by decide), byte 5 (by decide), byte 6 (by decide), byte 7 (by decide)]
  simp only [← Bool.and_or_distrib_right, one, Bool.true_and]

theorem half_xor (a b : Lanes 16 8) (index : Fin 2) :
    half (xor a b) index = half a index ^^^ half b index := by
  apply BitVec.eq_of_getLsbD_eq
  intro bit inside
  simp only [BitVec.getLsbD_xor, getLsbD_half _ _ inside, xor]

theorem half_setEpi64x (high low : BitVec 64) (index : Fin 2) :
    half (setEpi64x high low) index = if index = 0 then low else high := by
  apply BitVec.eq_of_getLsbD_eq
  intro bit inside
  rw [getLsbD_half _ _ inside, setEpi64x]
  by_cases lower : index = 0
  · subst lower
    have lane : 8 * (bit / 8) + bit % 8 = bit := Nat.div_add_mod bit 8
    simp [show bit / 8 < 8 by omega, show bit % 8 < 8 by omega, lane]
  · obtain rfl : index = 1 := by omega
    have lane : 8 * (bit / 8) + bit % 8 = bit := Nat.div_add_mod bit 8
    have upper : ¬ 8 + bit / 8 < 8 := by omega
    simp [upper, show bit % 8 < 8 by omega, lane]

theorem getLsbD_movemask (a : Lanes count width) (lane : Fin count) :
    (movemask a).getLsbD lane = (a lane).msb := by
  have collected (lanes : List (Fin count)) :
      (lanes.foldr (fun lane mask => mask ||| if (a lane).msb then BitVec.twoPow count lane else 0)
        0).getLsbD lane = (decide (lane ∈ lanes) && (a lane).msb) := by
    induction lanes with
    | nil => simp
    | cons head tail inductionHypothesis =>
      rw [List.foldr_cons, BitVec.getLsbD_or, inductionHypothesis]
      by_cases same : lane = head
      · subst same
        cases top : (a lane).msb <;> simp
      · cases top : (a head).msb with
        | false => simp [same]
        | true =>
          have apart : ¬ lane.val = head.val := fun equal => same (Fin.ext equal)
          simp [same, apart]
  rw [movemask, collected]
  simp

theorem and_allOnes (a b : Lanes count width) (lane : Fin count)
    (kept : b lane = BitVec.allOnes width) : and a b lane = a lane := by
  simp [and, kept]

theorem and_zero (a b : Lanes count width) (lane : Fin count) (cleared : b lane = 0) :
    and a b lane = 0 := by
  simp [and, cleared]

/-- The scan for the lowest set bit: 0 on an empty mask, and else a set bit with none below. -/
theorem ffs_cases (mask : BitVec width) :
    (ffs mask = 0 ∧ ∀ bit, mask.getLsbD bit = false) ∨
      ∃ bit < width, ffs mask = bit + 1 ∧ mask.getLsbD bit = true ∧
        ∀ lower < bit, mask.getLsbD lower = false := by
  by_cases empty : mask = 0
  · exact .inl ⟨by simp [ffs, empty], by simp [empty]⟩
  · have bound := BitVec.getLsbD_true_ctz_of_ne_zero (x := mask) empty
    refine .inr ⟨mask.ctz.toNat, ?_, by simpa [ffs] using empty, bound, ?_⟩
    · exact BitVec.lt_of_getLsbD bound
    · exact fun lower below => BitVec.getLsbD_false_of_lt_ctz below

end CloudflareBlog.Lib.Simd
