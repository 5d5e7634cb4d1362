import Mathlib.Data.List.Basic
import Mathlib.Data.Nat.ModEq

/-!
# Rings

A queue in a ring of slots, from the head to the slot before the tail.  The positions are 32-bit
numbers; they stay below the number of slots, so that their arithmetic never overflows.  To take an
entry is to advance the head by one, and what is pending loses its first entry (`pending_next`).
-/

namespace CloudflareBlog.Lib

structure RingQueue (Entry : Type*) where
  slots : Nat → Entry
  nr : Nat
  head : Nat
  tail : Nat
  nr_lt : nr < 2 ^ 32
  head_lt : head < nr
  tail_lt : tail < nr

namespace RingQueue

variable {Entry : Type*} (ring : RingQueue Entry)

def withHead (head : Nat) (inside : head < ring.nr) : RingQueue Entry :=
  { ring with head := head, head_lt := inside }

theorem nr_pos : 0 < ring.nr := Nat.zero_lt_of_lt ring.head_lt

/-- The head one slot further, in the arithmetic of 32 bits. -/
def next : RingQueue Entry :=
  ring.withHead ((ring.head + 1) % 2 ^ 32 % ring.nr) (Nat.mod_lt _ ring.nr_pos)

def advance (count : Nat) : RingQueue Entry :=
  ring.withHead ((ring.head + count) % ring.nr) (Nat.mod_lt _ ring.nr_pos)

def count : Nat := (ring.tail + ring.nr - ring.head) % ring.nr

/-- The entries that are pending, the oldest first. -/
def pending : List Entry :=
  (List.range ring.count).map fun index => ring.slots ((ring.head + index) % ring.nr)

@[simp] theorem length_pending : ring.pending.length = ring.count := by
  rw [pending, List.length_map, List.length_range]

theorem count_lt : ring.count < ring.nr := Nat.mod_lt _ ring.nr_pos

theorem count_of_le (straight : ring.head ≤ ring.tail) : ring.count = ring.tail - ring.head := by
  have tail_lt := ring.tail_lt
  rw [count, Nat.sub_add_comm straight, Nat.add_mod_right, Nat.mod_eq_of_lt (by omega)]

theorem count_of_lt (wraps : ring.tail < ring.head) :
    ring.count = ring.tail + ring.nr - ring.head := by
  have head_lt := ring.head_lt
  rw [count, Nat.mod_eq_of_lt (by omega)]

theorem count_eq_zero_iff : ring.count = 0 ↔ ring.head = ring.tail := by
  have head_lt := ring.head_lt
  obtain wraps | straight := Nat.lt_or_ge ring.tail ring.head
  · rw [count_of_lt ring wraps]
    omega
  · rw [count_of_le ring straight]
    omega

theorem advance_zero : ring.advance 0 = ring := by
  have same : (ring.head + 0) % ring.nr = ring.head := Nat.mod_eq_of_lt ring.head_lt
  simp only [advance, withHead, same]

theorem next_eq_advance : ring.next = ring.advance 1 := by
  have head_lt := ring.head_lt
  have nr_lt := ring.nr_lt
  have same : (ring.head + 1) % 2 ^ 32 = ring.head + 1 := Nat.mod_eq_of_lt (by omega)
  simp only [next, advance, same]

theorem advance_advance (first second : Nat) :
    (ring.advance first).advance second = ring.advance (first + second) := by
  have same : ((ring.head + first) % ring.nr + second) % ring.nr =
      (ring.head + (first + second)) % ring.nr := by
    rw [Nat.mod_add_mod, Nat.add_assoc]
  simp only [advance, withHead, same]

theorem count_next (nonempty : ring.head ≠ ring.tail) : ring.count = ring.next.count + 1 := by
  have head_lt := ring.head_lt
  have tail_lt := ring.tail_lt
  have tail : ring.next.tail = ring.tail := rfl
  have slots : ring.next.nr = ring.nr := rfl
  have head : ring.next.head = (ring.head + 1) % ring.nr := by
    rw [next_eq_advance]
    rfl
  by_cases last : ring.head + 1 = ring.nr
  · -- the head goes back to the first slot
    rw [last, Nat.mod_self] at head
    rw [count_of_lt ring (by omega), count_of_le ring.next (by omega)]
    omega
  · rw [Nat.mod_eq_of_lt (by omega)] at head
    obtain wraps | straight := Nat.lt_or_ge ring.tail ring.head
    · rw [count_of_lt ring wraps, count_of_lt ring.next (by omega)]
      omega
    · rw [count_of_le ring straight, count_of_le ring.next (by omega)]
      omega

/-- The oldest entry is in the slot at the head. -/
theorem pending_next (nonempty : ring.head ≠ ring.tail) :
    ring.pending = ring.slots ring.head :: ring.next.pending := by
  have here : (ring.head + 0) % ring.nr = ring.head := Nat.mod_eq_of_lt ring.head_lt
  rw [pending, count_next ring nonempty, List.range_succ_eq_map, List.map_cons, List.map_map, here,
    pending]
  congr 1
  apply List.map_congr_left
  intro index _
  rw [next_eq_advance]
  simp only [Function.comp_apply, advance, withHead]
  rw [Nat.mod_add_mod, Nat.succ_eq_add_one, Nat.add_assoc, Nat.add_comm 1]

end RingQueue

end CloudflareBlog.Lib
