import CloudflareBlog.Lib.Buffer
import CloudflareBlog.Lib.RingQueue

/-!
# The completions of the kernel

The kernel shows the completions of an AIO context in a ring that is mapped at the address of the
context.  `aio_poll.c` and `iosubmit.h` have an `io_getevents` that takes completions from the ring
first and calls the kernel then; both have the same loop, which is here, with what it takes
(`drain_eq`).
-/

namespace CloudflareBlog.IoSubmit

open Lib Lib.Buffer

def aioRingMagic : BitVec 32 := 0xa10a10a1

structure AioRing (Event : Type*) where
  magic : BitVec 32
  ring : RingQueue Event

structure Timespec where
  tvSec : Int
  tvNsec : Int
  deriving DecidableEq, Repr

/-- What ends a call without a result. -/
inductive Fault where
  /-- `i++` on the largest `int`. -/
  | overflow
  /-- A loop that has not ended. -/
  | running
  deriving DecidableEq, Repr

/-- What an `io_getevents` leaves. -/
structure Outcome (Event : Type*) where
  result : Int
  /-- The memory from `events` on. -/
  events : Nat → Event
  /-- How many completions were taken from the ring, and where its head is then. -/
  taken : Nat
  head : Option Nat
  /-- The answer of the system call, if there was one. -/
  answer : Option (Option (List Event))

/-- The answer of the system call for `min_nr` and `nr`: the events that it stores, or -1. -/
abbrev Syscall (Event : Type*) := Int → Int → Option (List Event)

/-- The conversion of a `long` to `int`. -/
def toInt32 (value : Int) : Int := value.bmod (2 ^ 32)

theorem toInt32_of_lt {value : Int} (low : -2 ^ 31 ≤ value) (high : value < 2 ^ 31) :
    toInt32 value = value :=
  Int.bmod_eq_of_le_mul_two (by omega) (by omega)

theorem toInt32_lt (value : Int) : toInt32 value < 2 ^ 31 := by
  have below := Int.bmod_lt (x := value) (m := 2 ^ 32) (by decide)
  unfold toInt32
  omega

section Loop

variable {Event : Type*}

/-- `while (i < max_nr)`, for a number of turns. -/
def drain (maxNr : Int) : Nat → Nat → RingQueue Event → (Nat → Event) →
    Except Fault (Nat × RingQueue Event × (Nat → Event))
  | 0, _, _, _ => .error .running
  | fuel + 1, i, ring, events =>
    if i < maxNr then
      let head := ring.head
      if head = ring.tail then .ok (i, ring, events)
      else
        let events := Function.update events i (ring.slots head)
        if i + 1 < 2 ^ 31 then drain maxNr fuel (i + 1) ring.next events
        else .error .overflow
    else .ok (i, ring, events)

/-- `ctx` as a ring: not `NULL`, and with the magic number. -/
def mapped (ctx : Option (AioRing Event)) : Option (RingQueue Event) :=
  match ctx with
  | some aioRing => if aioRing.magic ≠ aioRingMagic then none else some aioRing.ring
  | none => none

def shown (ctx : Option (AioRing Event)) : List Event :=
  match mapped ctx with
  | some ring => ring.pending
  | none => []

/-! ## The loop -/

/-- How many completions are taken when `i` have been taken already. -/
def room (maxNr : Int) (i : Nat) (ring : RingQueue Event) : Nat := min ring.count (maxNr - i).toNat

theorem room_next {maxNr : Int} {i : Nat} {ring : RingQueue Event} (more : i < maxNr)
    (nonempty : ring.head ≠ ring.tail) : room maxNr i ring = room maxNr (i + 1) ring.next + 1 := by
  have counted := ring.count_next nonempty
  unfold room
  omega

/-- How many completions there are for the ring to give. -/
def available (ctx : Option (AioRing Event)) (maxNr : Int) : Nat :=
  min (shown ctx).length maxNr.toNat

variable {ctx : Option (AioRing Event)} {ring : RingQueue Event}

theorem shown_of_mapped (visible : mapped ctx = some ring) : shown ctx = ring.pending := by
  rw [shown, visible]

theorem shown_of_not_mapped (hidden : mapped ctx = none) : shown ctx = [] := by
  rw [shown, hidden]

theorem room_zero (visible : mapped ctx = some ring) (maxNr : Int) :
    room maxNr 0 ring = available ctx maxNr := by
  have whole : maxNr - (0 : Nat) = maxNr := Int.sub_zero maxNr
  rw [room, available, shown_of_mapped visible, ring.length_pending, whole]

def answered (outcome : Outcome Event) : List Event := (outcome.answer.getD none).getD []

section Behind

variable (ctx : Option (AioRing Event)) (maxNr : Int) (events : Nat → Event)

/-- The head behind the completions that were available. -/
def headAfter : Option Nat :=
  (mapped ctx).map fun ring => (ring.head + available ctx maxNr) % ring.nr

def eventsAfter : Nat → Event := store events 0 ((shown ctx).take (available ctx maxNr))

theorem available_le : available ctx maxNr ≤ (shown ctx).length := Nat.min_le_left _ _

theorem length_taken :
    ((shown ctx).take (available ctx maxNr)).length = available ctx maxNr := by
  rw [List.length_take, Nat.min_eq_left (available_le ctx maxNr)]

end Behind

/-- The loop takes what is pending, up to the maximum. -/
theorem drain_eq {maxNr : Int} {fuel i : Nat} {ring : RingQueue Event} {events : Nat → Event}
    (enough : ring.count < fuel) (fits : i + room maxNr i ring < 2 ^ 31) :
    drain maxNr fuel i ring events =
      .ok (i + room maxNr i ring, ring.advance (room maxNr i ring),
        store events i (ring.pending.take (room maxNr i ring))) := by
  induction fuel generalizing i ring events with
  | zero => exact absurd enough (Nat.not_lt_zero _)
  | succ fuel inductionHypothesis =>
    -- a turn takes one completion, from the ring and from the room that is left
    by_cases more : (i : Int) < maxNr
    · by_cases empty : ring.head = ring.tail
      · have none : room maxNr i ring = 0 := by
          rw [room, ring.count_eq_zero_iff.mpr empty, Nat.zero_min]
        rw [drain, if_pos more, if_pos empty, none, ring.advance_zero, List.take_zero, store_nil,
          Nat.add_zero]
      · have counted := ring.count_next empty
        have oneMore := room_next more empty
        have rest : drain maxNr fuel (i + 1) ring.next
            (Function.update events i (ring.slots ring.head)) = _ :=
          inductionHypothesis (by omega) (by omega)
        rw [drain, if_pos more, if_neg empty]
        simp only [if_pos (show i + 1 < 2 ^ 31 by omega)]
        rw [rest, oneMore, ring.pending_next empty, List.take_succ_cons, store_cons,
          ring.next_eq_advance, ring.advance_advance, Nat.add_comm 1, Nat.add_assoc, Nat.add_comm 1]
    · have none : room maxNr i ring = 0 := by
        unfold room
        omega
      rw [drain, if_neg more, none, ring.advance_zero, List.take_zero, store_nil, Nat.add_zero]

theorem drain_of_mapped {maxNr : Int} {events : Nat → Event} (visible : mapped ctx = some ring)
    (fits : available ctx maxNr < 2 ^ 31) :
    drain maxNr ring.nr 0 ring events =
      .ok (available ctx maxNr, ring.advance (available ctx maxNr), eventsAfter ctx maxNr events) := by
  have drained : drain maxNr ring.nr 0 ring events = _ :=
    drain_eq ring.count_lt (by rw [room_zero visible]; omega)
  rw [drained, room_zero visible, eventsAfter, shown_of_mapped visible, Nat.zero_add]

section Behind

variable (ctx : Option (AioRing Event)) (maxNr : Int) (events : Nat → Event)

inductive Drained : Prop where
  | hidden (hidden : mapped ctx = none) (nothing : available ctx maxNr = 0)
      (head : headAfter ctx maxNr = none)
  | visible (ring : RingQueue Event) (visible : mapped ctx = some ring)
      (drained : drain maxNr ring.nr 0 ring events =
        .ok (available ctx maxNr, ring.advance (available ctx maxNr), eventsAfter ctx maxNr events))
      (head : headAfter ctx maxNr = some (ring.advance (available ctx maxNr)).head)

theorem drain_cases (fits : available ctx maxNr < 2 ^ 31) : Drained ctx maxNr events := by
  cases visible : mapped ctx with
  | none =>
    apply Drained.hidden visible
    · rw [available, shown_of_not_mapped visible, List.length_nil, Nat.zero_min]
    · rw [headAfter, visible, Option.map_none]
  | some ring =>
    apply Drained.visible ring visible (drain_of_mapped visible fits)
    rw [headAfter, visible]
    rfl

end Behind

theorem drain_overflow {maxNr : Int} {fuel i : Nat} {ring : RingQueue Event} {events : Nat → Event}
    (enough : ring.count < fuel) (before : i < 2 ^ 31) (beyond : 2 ^ 31 ≤ i + room maxNr i ring) :
    drain maxNr fuel i ring events = .error .overflow := by
  induction fuel generalizing i ring events with
  | zero => exact absurd enough (Nat.not_lt_zero _)
  | succ fuel inductionHypothesis =>
    have some : 0 < room maxNr i ring := by omega
    have more : (i : Int) < maxNr := by
      unfold room at some
      omega
    have nonempty : ring.head ≠ ring.tail := by
      intro empty
      rw [room, ring.count_eq_zero_iff.mpr empty, Nat.zero_min] at some
      exact absurd some (Nat.lt_irrefl 0)
    have counted := ring.count_next nonempty
    have oneMore := room_next more nonempty
    rw [drain, if_pos more, if_neg nonempty]
    by_cases fits : i + 1 < 2 ^ 31
    · simp only [if_pos fits]
      exact inductionHypothesis (by omega) fits (by omega)
    · simp only [if_neg fits]

theorem drain_overflow_of_mapped (ctx : Option (AioRing Event)) (maxNr : Int) (events : Nat → Event)
    (beyond : 2 ^ 31 ≤ available ctx maxNr) :
    ∃ ring, mapped ctx = some ring ∧ drain maxNr ring.nr 0 ring events = .error .overflow := by
  cases visible : mapped ctx with
  | none =>
    rw [available, shown_of_not_mapped visible, List.length_nil, Nat.zero_min] at beyond
    exact absurd beyond (by decide)
  | some ring =>
    have overflows : drain maxNr ring.nr 0 ring events = .error .overflow :=
      drain_overflow ring.count_lt (by decide) (by rw [room_zero visible]; omega)
    exact ⟨ring, rfl, overflows⟩

end Loop

/-- A ring of four slots with one completion. -/
def oneCompletion : AioRing Nat :=
  ⟨aioRingMagic, fun slot => slot + 40, 4, 3, 0, by decide, by decide, by decide⟩

end CloudflareBlog.IoSubmit
