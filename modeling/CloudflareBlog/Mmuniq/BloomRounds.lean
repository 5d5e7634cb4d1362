import CloudflareBlog.Mmuniq.Bloom
import CloudflareBlog.Mmuniq.Csiphash

/-!
# The hashes of the filter

The filter takes eight positions out of the four words of one hash, and changes the key for the next
eight.  The words of two of these hashes are never the same, whatever the line.
-/

namespace CloudflareBlog.Mmuniq.Bloom

open Lib.Buffer (Byte)
open Lib.Memory Lib.SipHash

/-- The line in a memory of its own. -/
def lineMemory (s : List Byte) : Bytes := fun a => s.getD a.toNat 0

/-- What `siphash24` writes to `res` for a line. -/
def resWords (s : List Byte) (k0 k1 : Word) : Fin 4 → Word :=
  match (Csiphash.siphash24 (lineMemory s) 0 s.length k0 k1 true).2 with
  | some res => res.words
  | none => fun _ => 0

/-- `off` in the round that starts at `i`. -/
def off (i : Nat) : Word := BitVec.ofNat 64 i * 0x1000100010001000#64

theorem off_injective {i j : Nat} (small : i < 2 ^ 52) (smallToo : j < 2 ^ 52)
    (same : off i = off j) : i = j := by
  -- the second factor is a power of two times an odd number, which has an inverse
  have inverse : ∀ k, off k * 0xffffffffffff0001#64 = BitVec.ofNat 64 (k * 0x1000) := by
    intro k
    rw [off, BitVec.mul_assoc, BitVec.ofNat_mul]
    rfl
  have scaled : BitVec.ofNat 64 (i * 0x1000) = BitVec.ofNat 64 (j * 0x1000) := by
    rw [← inverse, ← inverse, same]
  have numbers := congrArg BitVec.toNat scaled
  rw [BitVec.toNat_ofNat, BitVec.toNat_ofNat, Nat.mod_eq_of_lt (by omega),
    Nat.mod_eq_of_lt (by omega)] at numbers
  omega

theorem roundWords_eq {filter : Filter} (linked : filter.siphash24 = resWords) (s : List Byte)
    (i : Nat) :
    roundWords filter s i =
      (state 2 4 (k0 + off i) (k1 + off i) (bytesAt (lineMemory s) 0 s.length)).words := by
  rw [roundWords, linked, resWords, (Csiphash.siphash24_eq _ _ _ _ _).2]
  rfl

/-- With the hash function of the program, two rounds of a line never get the same four words. -/
theorem roundWords_ne {filter : Filter} (linked : filter.siphash24 = resWords) (s : List Byte)
    {i j : Nat} (small : i < 2 ^ 31) (smallToo : j < 2 ^ 31) (differ : i ≠ j) :
    roundWords filter s i ≠ roundWords filter s j := by
  intro same
  rw [roundWords_eq linked, roundWords_eq linked] at same
  have keys := (state_injective (State.words_injective same)).1
  exact differ (off_injective (by omega) (by omega) ((BitVec.add_right_inj _).mp keys))

/-- A small filter with the hash function of the program. -/
def linkedFilter : Filter where
  bits := 16
  large := by decide
  globalBloomK := 20
  positive := by decide
  siphash24 := resWords

theorem roundWords_ne_16 :
    roundWords linkedFilter [0x61, 0x62] 0 ≠ roundWords linkedFilter [0x61, 0x62] 16 :=
  roundWords_ne rfl [0x61, 0x62] (by decide) (by decide) (by decide)

end CloudflareBlog.Mmuniq.Bloom
