import Mathlib.Data.List.Basic
import Mathlib.Logic.Function.Basic

/-!
# Byte buffers

Memory as a function from positions to cells, with the block operations of the C library on it:
reading a block out (`slice`), storing one (`store`), moving one to another place (`move`) and
looking for a cell (`memchr`).  Each operation has one lemma that says what `slice` sees after it.
-/

namespace CloudflareBlog.Lib.Buffer

abbrev Byte := BitVec 8

/-- The ASCII line feed. -/
def newline : Byte := 10#8

variable {β : Type*}

/-- The `count` cells from `position` on. -/
def slice (memory : Nat → β) (position count : Nat) : List β :=
  (List.range' position count).map memory

@[simp] theorem length_slice (memory : Nat → β) (position count : Nat) :
    (slice memory position count).length = count := by
  simp [slice]

@[simp] theorem slice_zero (memory : Nat → β) (position : Nat) : slice memory position 0 = [] := rfl

theorem slice_succ (memory : Nat → β) (position count : Nat) :
    slice memory position (count + 1) = memory position :: slice memory (position + 1) count := by
  simp [slice, List.range'_succ]

theorem getElem_slice (memory : Nat → β) (position count index : Nat)
    (bound : index < (slice memory position count).length) :
    (slice memory position count)[index] = memory (position + index) := by
  simp [slice]

theorem slice_add (memory : Nat → β) (position first second : Nat) :
    slice memory position (first + second) =
      slice memory position first ++ slice memory (position + first) second := by
  simp [slice, ← List.range'_append_1]

theorem slice_congr {memory other : Nat → β} {position count : Nat}
    (agree : ∀ index < count, memory (position + index) = other (position + index)) :
    slice memory position count = slice other position count := by
  apply List.ext_getElem (by simp)
  intro index inside _
  rw [getElem_slice, getElem_slice, agree index (by simpa using inside)]

/-- The cells of `block` stored from `position` on. -/
def store (memory : Nat → β) (position : Nat) (block : List β) : Nat → β := fun address =>
  if position ≤ address then block.getD (address - position) (memory address) else memory address

theorem slice_store (memory : Nat → β) (position : Nat) (block : List β) :
    slice (store memory position block) position block.length = block := by
  apply List.ext_getElem (by simp)
  intro index _ inside
  simp [getElem_slice, store, inside]

theorem slice_store_before (memory : Nat → β) (position : Nat) (block : List β) {start count : Nat}
    (before : start + count ≤ position) :
    slice (store memory position block) start count = slice memory start count := by
  apply slice_congr
  intro index inside
  simp only [store, ite_eq_right_iff]
  omega

theorem store_cons (memory : Nat → β) (position : Nat) (first : β) (rest : List β) :
    store (Function.update memory position first) (position + 1) rest =
      store memory position (first :: rest) := by
  funext address
  simp only [store, Function.update_apply]
  obtain before | rfl | behind : address < position ∨ address = position ∨ position < address := by
    omega
  · simp [show ¬ position ≤ address by omega, show ¬ position + 1 ≤ address by omega,
      show address ≠ position by omega]
  · simp [show ¬ address + 1 ≤ address by omega]
  · obtain ⟨offset, rfl⟩ : ∃ offset, address = position + 1 + offset :=
      ⟨address - (position + 1), by omega⟩
    simp [show position + 1 + offset - position = offset + 1 by omega,
      show position ≤ position + 1 + offset by omega,
      show position + 1 + offset ≠ position by omega]

/-- Two blocks that are stored one behind the other are read as one. -/
theorem slice_store_store (memory : Nat → β) (first second : List β) :
    slice (store (store memory 0 first) first.length second) 0 (first.length + second.length) =
      first ++ second := by
  rw [slice_add, slice_store_before _ _ _ (by omega), slice_store, Nat.zero_add, slice_store]

theorem store_nil (memory : Nat → β) (position : Nat) : store memory position [] = memory := by
  funext address
  simp [store]

/-- `memmove(&memory[0], &memory[source], count)`. -/
def move (memory : Nat → β) (source count : Nat) : Nat → β := fun address =>
  if address < count then memory (source + address) else memory address

theorem move_zero (memory : Nat → β) (count : Nat) : move memory 0 count = memory := by
  funext address
  simp [move]

theorem slice_move (memory : Nat → β) (source count : Nat) :
    slice (move memory source count) 0 count = slice memory source count := by
  apply List.ext_getElem (by simp)
  intro index inside _
  simp only [length_slice] at inside
  simp [getElem_slice, move, inside]

variable [DecidableEq β]

/-- The position of the first `cell` among the `count` cells from `position` on. -/
def memchr (memory : Nat → β) (cell : β) : Nat → Nat → Option Nat
  | _, 0 => none
  | position, count + 1 =>
    if memory position = cell then some position else memchr memory cell (position + 1) count

/-- What `memchr` answers: nothing when the block has no such cell, and otherwise a position in the
block with the cell in it and none before it. -/
theorem memchr_cases (memory : Nat → β) (cell : β) (position count : Nat) :
    (memchr memory cell position count = none ∧ cell ∉ slice memory position count) ∨
      ∃ index < count, memchr memory cell position count = some (position + index) ∧
        memory (position + index) = cell ∧ cell ∉ slice memory position index := by
  induction count generalizing position with
  | zero => simp [memchr]
  | succ count inductionHypothesis =>
    by_cases here : memory position = cell
    · exact .inr ⟨0, by omega, by simp [memchr, here], by simpa using here, by simp⟩
    · obtain ⟨missing, absent⟩ | ⟨index, bound, found, there, absent⟩ :=
        inductionHypothesis (position + 1)
      · exact .inl ⟨by simp [memchr, here, missing], by simp [slice_succ, Ne.symm here, absent]⟩
      · refine .inr ⟨index + 1, by omega, ?_, ?_, ?_⟩
        · simp only [memchr, here, if_false, found, Option.some.injEq]
          omega
        · rw [← there]
          congr 1
          omega
        · simp [slice_succ, Ne.symm here, absent]

end CloudflareBlog.Lib.Buffer
