import CloudflareBlog.IoSubmit.AioRing

/-!
# `io_getevents` of `aio_poll.c`

After the ring the kernel is asked for what is missing to `min_nr`, and the answer is added to the
number of completions that were taken already.  When the kernel fails, it is -1 that is added: one
completion too few is reported, and it is gone.  In all other cases every completion is delivered
once (`delivers_iff`).
-/

namespace CloudflareBlog.IoSubmit.AioPoll

open Lib Lib.Buffer

variable {Event : Type*}

/-! ## The code -/

/-- `do_syscall`, after `i` completions. -/
def doSyscall (answer : Syscall Event) (minNr maxNr : Int) (i : Nat) (head : Option Nat)
    (events : Nat → Event) : Outcome Event :=
  match answer (minNr - i) (maxNr - i) with
  | none => ⟨toInt32 (-1 + i), events, i, head, some none⟩
  | some more => ⟨toInt32 (more.length + i), store events i more, i, head, some (some more)⟩

def ioGetevents (answer : Syscall Event) (ctx : Option (AioRing Event)) (minNr maxNr : Int)
    (events : Nat → Event) (timeout : Option Timespec) : Except Fault (Outcome Event) :=
  match mapped ctx with
  | none => .ok (doSyscall answer minNr maxNr 0 none events)
  | some ring => do
    -- a ring has fewer completions than slots
    let (i, ring, events) ← drain maxNr ring.nr 0 ring events
    if i = 0 ∧ timeout = some ⟨0, 0⟩ then
      return ⟨0, events, i, some ring.head, none⟩
    if i ≠ 0 ∧ i ≥ minNr then
      return ⟨i, events, i, some ring.head, none⟩
    return doSyscall answer minNr maxNr i (some ring.head) events

/-! ## Delivery -/

/-- Every completion that was taken from the ring or delivered by the system call is reported once, in
this order, and the head moved by the number of those that were taken. -/
structure Delivers (ctx : Option (AioRing Event)) (outcome : Outcome Event) : Prop where
  inRing : outcome.taken ≤ (shown ctx).length
  moved : outcome.head = (mapped ctx).map fun ring => (ring.head + outcome.taken) % ring.nr
  reported : 0 ≤ outcome.result →
    outcome.result = outcome.taken + (answered outcome).length ∧
      slice outcome.events 0 outcome.result.toNat =
        (shown ctx).take outcome.taken ++ answered outcome
  kept : outcome.result < 0 → outcome.taken = 0 ∧ answered outcome = []

def Calls (ctx : Option (AioRing Event)) (minNr maxNr : Int) (timeout : Option Timespec) : Prop :=
  ¬ ((mapped ctx).isSome ∧ available ctx maxNr = 0 ∧ timeout = some ⟨0, 0⟩) ∧
    ¬ (available ctx maxNr ≠ 0 ∧ minNr ≤ available ctx maxNr)

/-- All counts fit into an `int`, and the system call does not fail when completions were taken. -/
def Sound (answer : Syscall Event) (ctx : Option (AioRing Event)) (minNr maxNr : Int)
    (timeout : Option Timespec) : Prop :=
  available ctx maxNr < 2 ^ 31 ∧ (Calls ctx minNr maxNr timeout →
    match answer (minNr - available ctx maxNr) (maxNr - available ctx maxNr) with
    | none => available ctx maxNr = 0
    | some more => available ctx maxNr + more.length < 2 ^ 31)

/-! ## The result -/

variable (answer : Syscall Event) (ctx : Option (AioRing Event)) (minNr maxNr : Int)
  (events : Nat → Event) (timeout : Option Timespec)

variable {ctx maxNr}

/-- A call asks the kernel, or returns what it took from the ring. -/
theorem ioGetevents_eq (fits : available ctx maxNr < 2 ^ 31) :
    (Calls ctx minNr maxNr timeout → ioGetevents answer ctx minNr maxNr events timeout =
      .ok (doSyscall answer minNr maxNr (available ctx maxNr) (headAfter ctx maxNr)
        (eventsAfter ctx maxNr events))) ∧
    (¬ Calls ctx minNr maxNr timeout → ioGetevents answer ctx minNr maxNr events timeout =
      .ok ⟨available ctx maxNr, eventsAfter ctx maxNr events, available ctx maxNr,
        headAfter ctx maxNr, none⟩) := by
  unfold Calls ioGetevents
  cases drain_cases ctx maxNr events fits with
  | hidden hidden nothing head =>
    have unchanged : eventsAfter ctx maxNr events = events := by
      rw [eventsAfter, nothing, List.take_zero, store_nil]
    simp only [hidden, head, nothing, unchanged]
    simp
  | visible ring visible drained head =>
    simp only [visible, drained, head, bind, Except.bind, Option.isSome_some, true_and]
    constructor
    · rintro ⟨blocking, few⟩
      rw [if_neg blocking, if_neg few]
      rfl
    · intro returns
      by_cases nonBlocking : available ctx maxNr = 0 ∧ timeout = some ⟨0, 0⟩
      · rw [if_pos nonBlocking, nonBlocking.1]
        rfl
      · have enough : available ctx maxNr ≠ 0 ∧ (available ctx maxNr : Int) ≥ minNr := by
          by_contra few
          exact returns ⟨nonBlocking, few⟩
        rw [if_neg nonBlocking, if_pos enough]
        rfl

theorem ioGetevents_overflow (beyond : 2 ^ 31 ≤ available ctx maxNr) :
    ioGetevents answer ctx minNr maxNr events timeout = .error .overflow := by
  obtain ⟨ring, visible, overflows⟩ := drain_overflow_of_mapped ctx maxNr events beyond
  simp only [ioGetevents, visible, overflows]
  rfl

/-- A return behind the loop reports what it took. -/
theorem delivers_taken : Delivers ctx ⟨available ctx maxNr, eventsAfter ctx maxNr events,
    available ctx maxNr, headAfter ctx maxNr, none⟩ := by
  refine ⟨available_le ctx maxNr, rfl, fun _ => ⟨by simp [answered], ?_⟩, fun negative => ?_⟩
  · have whole := slice_store events 0 ((shown ctx).take (available ctx maxNr))
    rw [length_taken] at whole
    simpa [answered, eventsAfter] using whole
  · simp only at negative
    omega

/-- After completions from the ring, the system call delivers the rest unless it fails. -/
theorem delivers_doSyscall_iff (fits : available ctx maxNr < 2 ^ 31) :
    Delivers ctx (doSyscall answer minNr maxNr (available ctx maxNr) (headAfter ctx maxNr)
        (eventsAfter ctx maxNr events)) ↔
      match answer (minNr - available ctx maxNr) (maxNr - available ctx maxNr) with
      | none => available ctx maxNr = 0
      | some more => available ctx maxNr + more.length < 2 ^ 31 := by
  have inRing := available_le ctx maxNr
  have whole (more : List Event) :=
    slice_store_store events ((shown ctx).take (available ctx maxNr)) more
  simp only [length_taken] at whole
  unfold doSyscall
  cases called : answer (minNr - available ctx maxNr) (maxNr - available ctx maxNr) with
  | none =>
    have result : toInt32 (-1 + available ctx maxNr) = -1 + available ctx maxNr :=
      toInt32_of_lt (by omega) (by omega)
    simp only [result]
    constructor
    · rintro ⟨-, -, reported, -⟩
      by_contra some
      -- one completion is missing in the number
      obtain ⟨number, -⟩ := reported (show (0 : Int) ≤ -1 + available ctx maxNr by omega)
      simp only [answered, Option.getD_some, Option.getD_none, List.length_nil] at number
      omega
    · intro nothing
      refine ⟨inRing, rfl, fun positive => absurd positive ?_, fun _ => ⟨nothing, rfl⟩⟩
      simp only
      omega
  | some more =>
    constructor
    · rintro ⟨-, -, reported, kept⟩
      by_contra beyond
      have below := toInt32_lt (more.length + available ctx maxNr)
      simp only [answered, Option.getD_some] at reported kept
      obtain negative | positive := Int.lt_or_le (toInt32 (more.length + available ctx maxNr)) 0
      · obtain ⟨nothing, rfl⟩ := kept negative
        exact beyond (by simpa using fits)
      · have number := (reported positive).1
        omega
    · intro small
      have result : toInt32 (more.length + available ctx maxNr) =
          more.length + available ctx maxNr := toInt32_of_lt (by omega) (by omega)
      simp only [result]
      refine ⟨inRing, rfl, fun _ => ⟨Int.add_comm _ _, ?_⟩, fun negative => absurd negative ?_⟩
      · rw [show ((more.length : Int) + available ctx maxNr).toNat =
          available ctx maxNr + more.length by omega]
        exact whole more
      · simp only
        omega

/-- For every ring, every request and every answer of the system call: the completions are delivered
once exactly when no count is too large for an `int` and the system call does not fail after
completions were taken from the ring. -/
theorem delivers_iff (answer : Syscall Event) (ctx : Option (AioRing Event)) (minNr maxNr : Int)
    (events : Nat → Event) (timeout : Option Timespec) :
    (∃ outcome, ioGetevents answer ctx minNr maxNr events timeout = .ok outcome ∧
      Delivers ctx outcome) ↔ Sound answer ctx minNr maxNr timeout := by
  unfold Sound
  obtain fits | beyond := Nat.lt_or_ge (available ctx maxNr) (2 ^ 31)
  · obtain ⟨calling, returning⟩ :=
      ioGetevents_eq answer minNr events timeout fits
    by_cases calls : Calls ctx minNr maxNr timeout
    · simp only [calling calls, Except.ok.injEq, exists_eq_left',
        delivers_doSyscall_iff answer minNr events fits, fits, calls, true_implies, true_and]
    · simp only [returning calls, Except.ok.injEq, exists_eq_left', delivers_taken, fits, calls,
        false_implies, true_and]
  · rw [ioGetevents_overflow answer minNr events timeout beyond]
    refine iff_of_false ?_ fun sound => ?_
    · rintro ⟨outcome, returned, -⟩
      cases returned
    · exact absurd sound.1 (Nat.not_lt.mpr beyond)

/-- Two completions are waited for, one is there, and the kernel fails. -/
theorem not_delivers :
    ioGetevents (fun _ _ => none) (some oneCompletion) 2 2 (fun _ => 0) none = .ok
        ⟨0, store (fun _ => 0) 0 [43], 1, some 0, some none⟩ ∧
      ¬ ∃ outcome,
        ioGetevents (fun _ _ => none) (some oneCompletion) 2 2 (fun _ => 0) none = .ok outcome ∧
          Delivers (some oneCompletion) outcome := by
  have returned : ioGetevents (fun _ _ => none) (some oneCompletion) 2 2 (fun _ => 0) none = .ok
      ⟨0, store (fun _ => 0) 0 [43], 1, some 0, some none⟩ := by
    have calls : Calls (some oneCompletion) 2 2 none := by
      unfold Calls
      decide
    exact (ioGetevents_eq (fun _ _ => none) 2 (fun _ => 0) none (by decide)).1 calls
  refine ⟨returned, ?_⟩
  rintro ⟨outcome, same, -, -, reported, -⟩
  rw [returned] at same
  cases same
  exact absurd (reported (by decide)).1 (by decide)

end CloudflareBlog.IoSubmit.AioPoll
