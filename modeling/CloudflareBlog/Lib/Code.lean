import CloudflareBlog.Lib.Displacement

/-!
# Code in memory

Bytes that stand one after the other in memory, and the numbers that instructions hold among them.
Positions are given by their distance from the start of the code, displacements as integers.
-/

namespace CloudflareBlog.Lib.Memory

open Buffer

def Holds (memory : Bytes) (address : Address) : List Byte → Prop
  | [] => True
  | byte :: bytes => memory address = byte ∧ Holds memory (address + 1) bytes

instance decidableHolds (memory : Bytes) :
    (address : Address) → (bytes : List Byte) → Decidable (Holds memory address bytes)
  | _, [] => isTrue trivial
  | address, _ :: bytes =>
    have := decidableHolds memory (address + 1) bytes
    inferInstanceAs (Decidable (_ ∧ _))

/-- The bytes of a number, the low ones first. -/
def littleEndian (size : Nat) (value : BitVec (8 * size)) : List Byte :=
  (List.range size).map fun k => value.extractLsb' (8 * k) 8

variable {memory other : Bytes} {address base : Address} {bytes : List Byte}

@[simp] theorem length_littleEndian (size : Nat) (value : BitVec (8 * size)) :
    (littleEndian size value).length = size := by
  simp [littleEndian]

/-! ## Positions -/

/-- The address at a distance from the start. -/
def position (base : Address) (offset : Nat) : Address := base + BitVec.ofNat 64 offset

@[simp] theorem position_zero (base : Address) : position base 0 = base := BitVec.add_zero base

theorem position_add (base : Address) (m n : Nat) :
    position base m + BitVec.ofNat 64 n = position base (m + n) := by
  rw [position, position, BitVec.add_assoc, BitVec.ofNat_add]

@[simp] theorem position_position (base : Address) (m n : Nat) :
    position (position base m) n = position base (m + n) :=
  position_add base m n

theorem position_succ (base : Address) (offset : Nat) :
    position (base + 1) offset = position base (offset + 1) := by
  rw [position, position, BitVec.add_assoc, BitVec.add_comm 1, ← BitVec.ofNat_add_ofNat]
  rfl

theorem position_displacement (base : Address) {m n : Nat} {d : Int} (reaches : (m : Int) + d = n) :
    position base m + BitVec.ofInt 64 d = position base n := by
  rw [position, position, BitVec.add_assoc, ← BitVec.ofInt_natCast, ← BitVec.ofInt_add, reaches,
    BitVec.ofInt_natCast]

theorem position_inside (base : Address) {offset length : Nat} (small : length ≤ 2 ^ 64)
    (inside : offset < length) : Inside base length (position base offset) :=
  (inside_add_ofNat base (by omega)).mpr inside

theorem position_inj (base : Address) {m n : Nat} (small : m < 2 ^ 64) (other : n < 2 ^ 64)
    (same : position base m = position base n) : m = n := by
  have equal := congrArg BitVec.toNat ((BitVec.add_right_inj _).mp same)
  rwa [BitVec.toNat_ofNat, BitVec.toNat_ofNat, Nat.mod_eq_of_lt small, Nat.mod_eq_of_lt other]
    at equal

theorem position_aligned {base : Address} (aligned : base.toNat % 4 = 0) {offset : Nat}
    (whole : offset % 4 = 0) : (position base offset).toNat % 4 = 0 := by
  rw [position, BitVec.toNat_add, BitVec.toNat_ofNat]
  omega

theorem signExtend_ofInt {narrow width : Nat} (le : narrow ≤ width) {d : Int}
    (low : -(2 ^ narrow) ≤ d * 2) (high : d * 2 < 2 ^ narrow) :
    (BitVec.ofInt narrow d).signExtend width = BitVec.ofInt width d := by
  apply BitVec.eq_of_toInt_eq
  have narrowPower : ((2 ^ narrow : Nat) : Int) = 2 ^ narrow := by push_cast; rfl
  have grows : (2 : Int) ^ narrow ≤ 2 ^ width := by
    have := Nat.pow_le_pow_right (show 0 < 2 by decide) le
    exact_mod_cast this
  rw [BitVec.toInt_signExtend_of_le le, BitVec.toInt_ofInt, BitVec.toInt_ofInt,
    Int.bmod_eq_of_le_mul_two (by push_cast; omega) (by push_cast; omega),
    Int.bmod_eq_of_le_mul_two (by push_cast; omega) (by push_cast; omega)]

/-! ## Bytes -/

theorem holds_cons {byte : Byte} :
    Holds memory address (byte :: bytes) ↔ memory address = byte ∧ Holds memory (address + 1) bytes :=
  Iff.rfl

theorem holds_append {more : List Byte} :
    Holds memory address (bytes ++ more) ↔
      Holds memory address bytes ∧ Holds memory (position address bytes.length) more := by
  induction bytes generalizing address with
  | nil => simp [Holds, position]
  | cons byte bytes inductionHypothesis =>
    rw [List.cons_append, holds_cons, inductionHypothesis, holds_cons, and_assoc,
      position_succ, List.length_cons]

theorem holds_iff :
    Holds memory address bytes ↔
      ∀ k (inside : k < bytes.length), memory (position address k) = bytes[k] := by
  induction bytes generalizing address with
  | nil => simp [Holds]
  | cons byte bytes inductionHypothesis =>
    rw [holds_cons, inductionHypothesis]
    constructor
    · rintro ⟨first, rest⟩ k inside
      cases k with
      | zero =>
        rw [position_zero]
        exact first
      | succ k =>
        rw [← position_succ]
        exact rest k (Nat.lt_of_succ_lt_succ inside)
    · intro each
      refine ⟨?_, fun k inside => ?_⟩
      · have first := each 0 (Nat.succ_pos _)
        rwa [position_zero] at first
      · rw [position_succ]
        exact each (k + 1) (Nat.succ_lt_succ inside)

theorem length_flatMap_range {α : Type} {cell : Nat → List α} {size : Nat} (count : Nat)
    (sized : ∀ i < count, (cell i).length = size) :
    ((List.range count).flatMap cell).length = count * size := by
  rw [List.length_flatMap, List.map_congr_left fun i among => sized i (List.mem_range.mp among)]
  simp

theorem Holds.cell {cell : Nat → List Byte} {count size : Nat}
    (sized : ∀ i < count, (cell i).length = size)
    (holds : Holds memory base ((List.range count).flatMap cell)) {i : Nat} (inside : i < count) :
    Holds memory (position base (i * size)) (cell i) := by
  induction count with
  | zero => exact absurd inside (Nat.not_lt_zero i)
  | succ count inductionHypothesis =>
    have length := length_flatMap_range count fun j among => sized j (Nat.lt_succ_of_lt among)
    rw [List.range_succ, List.flatMap_append, List.flatMap_singleton, holds_append, length] at holds
    obtain last | before := Nat.lt_succ_iff_lt_or_eq.mp inside |>.symm
    · rw [last]
      exact holds.2
    · exact inductionHypothesis (fun j among => sized j (Nat.lt_succ_of_lt among)) holds.1 before

theorem Holds.congr (holds : Holds memory address bytes) (small : bytes.length ≤ 2 ^ 64)
    (same : ∀ a, Inside address bytes.length a → other a = memory a) :
    Holds other address bytes := by
  rw [holds_iff] at holds ⊢
  intro k inside
  rw [← holds k inside]
  exact same _ ((inside_add_ofNat address (by omega)).mpr inside)

theorem holds_storeBytes (memory : Bytes) (address : Address) (small : bytes.length ≤ 2 ^ 64) :
    Holds (storeBytes memory address bytes) address bytes :=
  holds_iff.mpr fun _ inside => storeBytes_at memory address bytes (by omega) inside

theorem load_of_holds {size : Nat} {value : BitVec (8 * size)}
    (holds : Holds memory address (littleEndian size value)) :
    load memory address size = value := by
  rw [holds_iff] at holds
  apply BitVec.eq_of_getLsbD_eq
  intro bit inside
  have byte : bit / 8 < size := by omega
  have here := holds (bit / 8) (by rwa [length_littleEndian])
  rw [position] at here
  rw [getLsbD_load, decide_eq_true inside, Bool.true_and, here]
  simp [littleEndian, Nat.mod_lt, Nat.div_add_mod]

end CloudflareBlog.Lib.Memory
