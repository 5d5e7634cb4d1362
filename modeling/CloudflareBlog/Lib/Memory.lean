import Mathlib.Data.BitVec
import CloudflareBlog.Lib.Buffer

/-!
# Memory

Bytes at addresses of 64 bits.  Address arithmetic wraps around, so a range of addresses is given by
its first address and its length, and an address lies in the range if its distance from the first is
less than the length (`Inside`).  Numbers stand in memory with their low bytes first.
-/

namespace CloudflareBlog.Lib.Memory

open Buffer

abbrev Address := BitVec 64

abbrev Bytes := Address → Byte

/-- The address is one of the `length` addresses from `start` on. -/
def Inside (start : Address) (length : Nat) (address : Address) : Prop :=
  (address - start).toNat < length

instance (start : Address) (length : Nat) (address : Address) :
    Decidable (Inside start length address) :=
  inferInstanceAs (Decidable ((address - start).toNat < length))

theorem bits_succ (size : Nat) : 8 + 8 * size = 8 * (size + 1) := by omega

/-- The number that stands in the `size` bytes at `address`. -/
def load (memory : Bytes) (address : Address) : (size : Nat) → BitVec (8 * size)
  | 0 => 0
  | size + 1 =>
    (memory (address + BitVec.ofNat 64 size) ++ load memory address size).cast (bits_succ size)

/-- A number stored in the `size` bytes at `address`. -/
def store (memory : Bytes) (address : Address) (size : Nat) (value : BitVec (8 * size)) :
    Bytes := fun a =>
  if Inside address size a then value.extractLsb' (8 * (a - address).toNat) 8 else memory a

/-- Bytes stored from `address` on. -/
def storeBytes (memory : Bytes) (address : Address) (bytes : List Byte) : Bytes := fun a =>
  if Inside address bytes.length a then bytes.getD (a - address).toNat 0 else memory a

/-- `memcpy`: `length` bytes from `source` in other memory. -/
def copy (memory : Bytes) (destination : Address) (other : Bytes) (source : Address)
    (length : Nat) : Bytes := fun a =>
  if Inside destination length a then other (source + (a - destination)) else memory a

/-- The string at `address` is `name`: `strlen` gives the same and `strcmp` gives zero. -/
def sameString (memory : Bytes) (address : Address) : List Byte → Bool
  | [] => memory address = 0
  | c :: name => memory address = c && sameString memory (address + 1) name

/-- The characters of a string in ASCII. -/
def ascii (text : String) : List Byte := text.toList.map fun c => BitVec.ofNat 8 c.toNat

/-! ## Ranges -/

section

variable {start address : Address} {length : Nat}

theorem add_sub_self (start offset : Address) : start + offset - start = offset := by
  rw [BitVec.add_comm, BitVec.add_sub_cancel]

theorem inside_add_ofNat (start : Address) {index : Nat} (small : index < 2 ^ 64) :
    Inside start length (start + BitVec.ofNat 64 index) ↔ index < length := by
  rw [Inside, add_sub_self, BitVec.toNat_ofNat, Nat.mod_eq_of_lt small]

/-- The range of `length` addresses that starts at `offset` from a base, in distances from the base:
here no sum wraps around. -/
theorem inside_add_iff (base : Address) {offset : Address} (room : offset.toNat + length ≤ 2 ^ 64)
    (address : Address) :
    Inside (base + offset) length address ↔
      offset.toNat ≤ (address - base).toNat ∧ (address - base).toNat < offset.toNat + length := by
  have shift : address - (base + offset) = address - base - offset := sub_add_eq_sub_sub _ _ _
  have := (address - base).isLt
  have := offset.isLt
  rw [Inside, shift, BitVec.toNat_sub]
  omega

end

/-! ## Loading -/

section

variable {memory other : Bytes} {address : Address} {size : Nat}

theorem load_congr
    (same : ∀ k < size, memory (address + BitVec.ofNat 64 k) = other (address + BitVec.ofNat 64 k)) :
    load memory address size = load other address size := by
  induction size with
  | zero => rfl
  | succ size inductionHypothesis =>
    rw [load, load, same size (Nat.lt_succ_self _),
      inductionHypothesis fun k before => same k (Nat.lt_succ_of_lt before)]

theorem load_eq_of_inside (small : size ≤ 2 ^ 64)
    (same : ∀ a, Inside address size a → memory a = other a) :
    load memory address size = load other address size :=
  load_congr fun _ inside =>
    same _ ((inside_add_ofNat address (Nat.lt_of_lt_of_le inside small)).mpr inside)

theorem getLsbD_load (memory : Bytes) (address : Address) (size bit : Nat) :
    (load memory address size).getLsbD bit =
      (decide (bit < 8 * size) && (memory (address + BitVec.ofNat 64 (bit / 8))).getLsbD (bit % 8)) := by
  induction size with
  | zero => simp
  | succ size inductionHypothesis =>
    rw [load, BitVec.getLsbD_cast, BitVec.getLsbD_append, inductionHypothesis]
    obtain lower | upper := Nat.lt_or_ge bit (8 * size)
    · simp [lower, show bit < 8 * (size + 1) by omega]
    · rw [if_neg (Nat.not_lt.mpr upper)]
      by_cases inside : bit < 8 * (size + 1)
      · rw [show bit / 8 = size by omega, show bit - 8 * size = bit % 8 by omega,
          decide_eq_true inside, Bool.true_and]
      · rw [BitVec.getLsbD_of_ge _ _ (by omega), decide_eq_false inside, Bool.false_and]

/-! ## Storing -/

theorem store_outside {value : BitVec (8 * size)} {a : Address} (outside : ¬Inside address size a) :
    store memory address size value a = memory a :=
  if_neg outside

theorem storeBytes_outside {bytes : List Byte} {a : Address}
    (outside : ¬Inside address bytes.length a) : storeBytes memory address bytes a = memory a :=
  if_neg outside

theorem storeBytes_at (memory : Bytes) (address : Address) (bytes : List Byte) {index : Nat}
    (small : index < 2 ^ 64) (inside : index < bytes.length) :
    storeBytes memory address bytes (address + BitVec.ofNat 64 index) = bytes[index] := by
  rw [storeBytes, if_pos ((inside_add_ofNat address small).mpr inside), add_sub_self,
    BitVec.toNat_ofNat, Nat.mod_eq_of_lt small, List.getD_eq_getElem?_getD,
    List.getElem?_eq_getElem inside, Option.getD_some]

theorem copy_outside {source : Address} {a : Address} (outside : ¬Inside address size a) :
    copy memory address other source size a = memory a :=
  if_neg outside

theorem copy_inside {source : Address} {a : Address} (inside : Inside address size a) :
    copy memory address other source size a = other (source + (a - address)) :=
  if_pos inside

@[simp] theorem load_store (memory : Bytes) (address : Address) (size : Nat)
    (small : size ≤ 2 ^ 60) (value : BitVec (8 * size)) :
    load (store memory address size value) address size = value := by
  apply BitVec.eq_of_getLsbD_eq
  intro bit inside
  have byte : bit / 8 < size := by omega
  have position : (BitVec.ofNat 64 (bit / 8)).toNat = bit / 8 := by
    rw [BitVec.toNat_ofNat, Nat.mod_eq_of_lt (by omega)]
  have reached : Inside address size (address + BitVec.ofNat 64 (bit / 8)) :=
    (inside_add_ofNat address (by omega)).mpr byte
  rw [getLsbD_load, store, if_pos reached, add_sub_self, position, BitVec.getLsbD_extractLsb',
    Nat.div_add_mod, decide_eq_true inside, decide_eq_true (Nat.mod_lt _ (by decide))]
  simp only [Bool.true_and]

theorem load_store_of_disjoint {otherAddress : Address} {otherSize : Nat} (small : size ≤ 2 ^ 64)
    {value : BitVec (8 * otherSize)}
    (disjoint : ∀ a, Inside address size a → ¬Inside otherAddress otherSize a) :
    load (store memory otherAddress otherSize value) address size = load memory address size :=
  load_eq_of_inside small fun a inside => store_outside (disjoint a inside)

end

end CloudflareBlog.Lib.Memory
