import CloudflareBlog.Lib.Buffer

/-!
# Bits packed into bytes

A row of bits in a row of bytes, the first bit of a byte its highest.  Bytes are determined by their
bits (`ext`), and bits that are OR-ed one after the other into cleared bytes are the bits of the
result (`bitAt_packBits`).
-/

namespace CloudflareBlog.Lib.PackedBits

open Buffer

/-- Bit `7 - s % 8` of byte `s / 8`. -/
def bitAt (bytes : List Byte) (s : Nat) : Bool := (bytes.getD (s / 8) 0).getLsbD (7 - s % 8)

def orBit (bytes : List Byte) (bit : Bool × Nat) : List Byte :=
  bytes.modify (bit.2 / 8) (· ||| if bit.1 then (1 : Byte) <<< (7 - bit.2 % 8) else 0)

/-- The bits in order, into bytes that are all zero. -/
def packBits (count : Nat) (bits : List Bool) : List Byte :=
  bits.zipIdx.foldl orBit (List.replicate count 0)

variable {bytes other : List Byte} {bits : List Bool} {s t : Nat}

@[simp] theorem length_orBit (bit : Bool × Nat) : (orBit bytes bit).length = bytes.length := by
  rw [orBit, List.length_modify]

@[simp] theorem length_foldl_orBit (bits : List (Bool × Nat)) :
    (bits.foldl orBit bytes).length = bytes.length := by
  induction bits generalizing bytes with
  | nil => rfl
  | cons bit rest inductionHypothesis =>
    rw [List.foldl_cons, inductionHypothesis, length_orBit]

@[simp] theorem length_packBits (count : Nat) : (packBits count bits).length = count := by
  rw [packBits, length_foldl_orBit, List.length_replicate]

theorem ext (lengths : bytes.length = other.length)
    (same : ∀ s < 8 * bytes.length, bitAt bytes s = bitAt other s) : bytes = other := by
  apply List.ext_getElem lengths
  intro index inside insideOther
  apply BitVec.eq_of_getLsbD_eq
  intro place low
  have bit := same (8 * index + (7 - place)) (by omega)
  have byteIndex : (8 * index + (7 - place)) / 8 = index := by omega
  have bitIndex : 7 - (8 * index + (7 - place)) % 8 = place := by omega
  rw [bitAt, bitAt, byteIndex, bitIndex] at bit
  simpa [inside, insideOther] using bit

theorem getLsbD_one_shiftLeft {place other : Nat} (low : other < 8) :
    ((1 : Byte) <<< place).getLsbD other = (other == place) := by
  rw [BitVec.getLsbD_shiftLeft, BitVec.ofNat_eq_ofNat, BitVec.getLsbD_one]
  grind

theorem bitAt_orBit (flag : Bool) (inside : s < 8 * bytes.length) :
    bitAt (orBit bytes (flag, s)) t = (bitAt bytes t || (flag && t == s)) := by
  have there : s / 8 < bytes.length := by omega
  have placeOf : 7 - t % 8 < 8 := by omega
  simp only [bitAt, orBit, List.getD_eq_getElem?_getD, List.getElem?_modify]
  by_cases sameByte : s / 8 = t / 8
  · rw [← sameByte, List.getElem?_eq_getElem there]
    simp only [if_true, Option.map_eq_map, Option.map_some, Option.getD_some, BitVec.getLsbD_or]
    congr 1
    cases flag with
    | false => simp
    | true =>
      rw [if_pos rfl, getLsbD_one_shiftLeft placeOf]
      grind
  · have apart : (t == s) = false := by grind
    simp [sameByte, apart]

theorem bitAt_foldl_orBit (bits : List Bool) (start : Nat)
    (room : start + bits.length ≤ 8 * bytes.length) (s : Nat) :
    bitAt ((bits.zipIdx start).foldl orBit bytes) s =
      (bitAt bytes s || (decide (start ≤ s) && bits.getD (s - start) false)) := by
  induction bits generalizing bytes start with
  | nil => simp
  | cons bit rest inductionHypothesis =>
    rw [List.length_cons] at room
    rw [List.zipIdx_cons, List.foldl_cons,
      inductionHypothesis (start + 1) (by rw [length_orBit]; omega), bitAt_orBit bit (by omega)]
    obtain before | here | behind : s < start ∨ s = start ∨ start < s := by omega
    · have apart : (s == start) = false := by grind
      simp [apart, show ¬ start + 1 ≤ s by omega, show ¬ start ≤ s by omega]
    · simp [here, show ¬ start + 1 ≤ start by omega]
    · have apart : (s == start) = false := by grind
      obtain ⟨offset, rfl⟩ : ∃ offset, s = start + 1 + offset := ⟨s - (start + 1), by omega⟩
      simp [apart, show start + 1 + offset - start = offset + 1 by omega,
        show start ≤ start + 1 + offset by omega]

theorem bitAt_packBits {count : Nat} (room : bits.length ≤ 8 * count) (s : Nat) :
    bitAt (packBits count bits) s = bits.getD s false := by
  have cleared : bitAt (List.replicate count 0) s = false := by
    simp only [bitAt, List.getD_eq_getElem?_getD, List.getElem?_replicate]
    split <;> simp
  rw [packBits, bitAt_foldl_orBit bits 0 (by simpa using room), cleared]
  simp

end CloudflareBlog.Lib.PackedBits
