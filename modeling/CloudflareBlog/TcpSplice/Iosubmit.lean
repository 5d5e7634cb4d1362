import CloudflareBlog.IoSubmit.AioRing
import CloudflareBlog.TcpSplice.EchoIosubmit

/-!
# `io_getevents` of `iosubmit.h`

The loop over the ring is that of `aio_poll.c`, but whatever it finds is returned, with no look at
`min_nr`: a ring with some completions, but not enough, ends the wait early (`honours_iff`).
-/

namespace CloudflareBlog.TcpSplice.Iosubmit

open Lib Lib.Buffer IoSubmit

variable {Event : Type*}

/-! ## The code -/

def doSyscall (answer : Syscall Event) (minNr maxNr : Int) (head : Option Nat)
    (events : Nat → Event) : Outcome Event :=
  match answer minNr maxNr with
  | none => ⟨toInt32 (-1), events, 0, head, some none⟩
  | some more => ⟨toInt32 more.length, store events 0 more, 0, head, some (some more)⟩

def ioGetevents (answer : Syscall Event) (ctx : Option (AioRing Event)) (minNr maxNr : Int)
    (events : Nat → Event) (timeout : Option Timespec) : Except Fault (Outcome Event) :=
  match mapped ctx with
  | none => .ok (doSyscall answer minNr maxNr none events)
  | some ring => do
    let (i, ring, events) ← drain maxNr ring.nr 0 ring events
    if i = 0 ∧ timeout = some ⟨0, 0⟩ ∧ ring.head = ring.tail then
      return ⟨0, events, i, some ring.head, none⟩
    if i ≠ 0 then
      return ⟨i, events, i, some ring.head, none⟩
    return doSyscall answer minNr maxNr (some ring.head) events

/-! ## The contract -/

/-- The system call without a timeout fails, or waits for `min_nr` completions and stores at most `nr`,
the oldest first. -/
def Contract (queue : List Event) (answer : Syscall Event) : Prop :=
  ∀ minNr nr more, answer minNr nr = some more →
    minNr ≤ more.length ∧ more.length ≤ nr ∧ more <+: queue

/-- The completions that a call took, from the ring or from the kernel. -/
def consumed (ctx : Option (AioRing Event)) (outcome : Outcome Event) : List Event :=
  (shown ctx).take outcome.taken ++ answered outcome

/-- An error takes nothing; a count is one of those that were asked for, and counts the oldest
completions. -/
inductive Honours (ctx : Option (AioRing Event)) (queue : List Event) (minNr maxNr : Int)
    (outcome : Outcome Event) : Prop where
  | failed (error : outcome.result = -1) (nothing : consumed ctx outcome = [])
  | delivered (least : minNr ≤ outcome.result) (most : outcome.result ≤ maxNr)
      (number : outcome.result = (consumed ctx outcome).length)
      (stored : slice outcome.events 0 outcome.result.toNat = consumed ctx outcome)
      (oldest : consumed ctx outcome <+: queue)

/-! ## The result -/

variable {ctx : Option (AioRing Event)} {queue : List Event} {minNr maxNr : Int}
  (answer : Syscall Event) (events : Nat → Event)

theorem ioGetevents_of_available (some : available ctx maxNr ≠ 0)
    (fits : available ctx maxNr < 2 ^ 31) :
    ioGetevents answer ctx minNr maxNr events none =
      .ok ⟨available ctx maxNr, eventsAfter ctx maxNr events, available ctx maxNr,
        headAfter ctx maxNr, none⟩ := by
  unfold ioGetevents
  cases drain_cases ctx maxNr events fits with
  | hidden _ nothing => exact absurd nothing some
  | visible ring visible drained head =>
    simp only [visible, drained, head, bind, Except.bind]
    simp [some, pure, Except.pure]

theorem ioGetevents_of_not_available (nothing : available ctx maxNr = 0) :
    ioGetevents answer ctx minNr maxNr events none =
      .ok (doSyscall answer minNr maxNr (headAfter ctx maxNr) events) := by
  have unchanged : eventsAfter ctx maxNr events = events := by
    rw [eventsAfter, nothing, List.take_zero, store_nil]
  unfold ioGetevents
  cases drain_cases ctx maxNr events (by omega) with
  | hidden hidden _ head => simp only [hidden, head]
  | visible ring visible drained head =>
    simp only [visible, drained, head, nothing, unchanged, bind, Except.bind]
    simp [pure, Except.pure]

theorem ioGetevents_overflow (beyond : 2 ^ 31 ≤ available ctx maxNr) :
    ioGetevents answer ctx minNr maxNr events none = .error .overflow := by
  obtain ⟨ring, visible, overflows⟩ := drain_overflow_of_mapped ctx maxNr events beyond
  simp only [ioGetevents, visible, overflows]
  rfl

/-- What the ring gave is enough only if `min_nr` completions were there. -/
theorem honours_taken_iff (ordered : shown ctx <+: queue) (requested : minNr ≤ maxNr)
    (some : available ctx maxNr ≠ 0) :
    Honours ctx queue minNr maxNr ⟨available ctx maxNr, eventsAfter ctx maxNr events,
        available ctx maxNr, headAfter ctx maxNr, none⟩ ↔ minNr ≤ (shown ctx).length := by
  have inRing := available_le ctx maxNr
  have whole := slice_store events 0 ((shown ctx).take (available ctx maxNr))
  rw [length_taken] at whole
  constructor
  · intro honours
    cases honours with
    | failed error _ =>
      simp only at error
      omega
    | delivered least _ _ _ _ => exact Int.le_trans least (Int.ofNat_le.mpr inRing)
  · intro enough
    have all : consumed ctx ⟨available ctx maxNr, eventsAfter ctx maxNr events,
        available ctx maxNr, headAfter ctx maxNr, none⟩ =
          (shown ctx).take (available ctx maxNr) := by
      simp [consumed, answered]
    apply Honours.delivered
    · simp only [available] at some ⊢
      omega
    · simp only [available] at some ⊢
      omega
    · rw [all, length_taken]
    · rw [all]
      exact whole
    · rw [all]
      exact (List.take_prefix _ _).trans ordered

/-- The system call keeps its contract, if its count is an `int`. -/
theorem honours_doSyscall_iff (contract : Contract queue answer) (head : Option Nat) :
    Honours ctx queue minNr maxNr (doSyscall answer minNr maxNr head events) ↔
      ∀ more, answer minNr maxNr = some more → more.length < 2 ^ 31 := by
  unfold doSyscall
  cases called : answer minNr maxNr with
  | none =>
    apply iff_of_true
    · have error : toInt32 (-1) = -1 := toInt32_of_lt (by decide) (by decide)
      exact Honours.failed error (by simp [consumed, answered])
    · nofun
  | some more =>
    obtain ⟨least, most, oldest⟩ := contract minNr maxNr more called
    have all (result : Int) :
        consumed ctx ⟨result, store events 0 more, 0, head, some (some more)⟩ = more := by
      simp [consumed, answered]
    have below := toInt32_lt more.length
    simp only [Option.some.injEq, forall_eq']
    constructor
    · intro honours
      cases honours with
      | failed _ nothing =>
        rw [all] at nothing
        rw [nothing, List.length_nil]
        decide
      | delivered _ _ number _ _ =>
        rw [all] at number
        simp only at number
        omega
    · intro small
      have result : toInt32 more.length = more.length := toInt32_of_lt (by omega) (by omega)
      rw [result]
      apply Honours.delivered
      · exact least
      · exact most
      · rw [all]
      · rw [all]
        exact slice_store events 0 more
      · rw [all]
        exact oldest

/-- A call without a timeout honours its contract exactly when the ring shows no completion or at least
`min_nr`, and no count is too large for an `int`. -/
theorem honours_iff (answer : Syscall Event) (ctx : Option (AioRing Event)) (queue : List Event)
    (minNr maxNr : Int) (events : Nat → Event) (ordered : shown ctx <+: queue)
    (contract : Contract queue answer) (requested : 0 ≤ minNr ∧ minNr ≤ maxNr) :
    (∃ outcome, ioGetevents answer ctx minNr maxNr events none = .ok outcome ∧
      Honours ctx queue minNr maxNr outcome) ↔
      (shown ctx = [] ∨ minNr ≤ (shown ctx).length) ∧ available ctx maxNr < 2 ^ 31 ∧
        (available ctx maxNr = 0 →
          ∀ more, answer minNr maxNr = some more → more.length < 2 ^ 31) := by
  by_cases nothing : available ctx maxNr = 0
  · -- the ring is empty, or nothing is asked for: the kernel keeps the contract
    have fast : shown ctx = [] ∨ minNr ≤ (shown ctx).length := by
      rw [← List.length_eq_zero_iff]
      unfold available at nothing
      omega
    simp only [ioGetevents_of_not_available answer events nothing, Except.ok.injEq,
      exists_eq_left', honours_doSyscall_iff answer events contract, fast, nothing,
      Nat.two_pow_pos, true_and, true_implies]
  · have shows : shown ctx ≠ [] := by
      intro empty
      rw [available, empty, List.length_nil, Nat.zero_min] at nothing
      exact nothing rfl
    obtain fits | beyond := Nat.lt_or_ge (available ctx maxNr) (2 ^ 31)
    · simp only [ioGetevents_of_available answer events nothing fits, Except.ok.injEq,
        exists_eq_left', honours_taken_iff events ordered requested.2 nothing, shows, fits, nothing,
        false_or, false_implies, and_true]
    · rw [ioGetevents_overflow answer events beyond]
      apply iff_of_false
      · intro returns
        obtain ⟨outcome, returned, _⟩ := returns
        cases returned
      · intro sound
        exact absurd sound.2.1 (Nat.not_lt.mpr beyond)

/-! ## The echo server -/

theorem reapLoop_eq (maxNr i : Nat) (ring : List EchoIosubmit.IoEvent)
    (events : Nat → EchoIosubmit.IoEvent) :
    EchoIosubmit.reapLoop maxNr i ring events =
      (i + min ring.length (maxNr - i), ring.drop (min ring.length (maxNr - i)),
        store events i (ring.take (min ring.length (maxNr - i)))) := by
  induction ring generalizing i events with
  | nil => simp [EchoIosubmit.reapLoop, store_nil]
  | cons event rest inductionHypothesis =>
    rw [EchoIosubmit.reapLoop]
    by_cases more : i < maxNr
    · have oneMore : min (event :: rest).length (maxNr - i) =
          min rest.length (maxNr - (i + 1)) + 1 := by
        rw [List.length_cons]
        omega
      rw [if_pos more, inductionHypothesis, oneMore, List.take_succ_cons, List.drop_succ_cons,
        store_cons, Nat.add_assoc, Nat.add_comm 1]
    · have none : min (event :: rest).length (maxNr - i) = 0 := by omega
      rw [if_neg more, none, List.take_zero, List.drop_zero, store_nil, Nat.add_zero]

/-- The call of the echo server, over the list of its completions, is this one on a ring that shows the
first of them. -/
theorem ioGetevents_echo {ctx : Option (AioRing EchoIosubmit.IoEvent)} {maxNr visible : Nat}
    {completions : List EchoIosubmit.IoEvent} (answer : Syscall EchoIosubmit.IoEvent) (minNr : Int)
    (events : Nat → EchoIosubmit.IoEvent) (shows : shown ctx = completions.take visible)
    (some : available ctx maxNr ≠ 0) (fits : available ctx maxNr < 2 ^ 31) :
    ∃ outcome, ioGetevents answer ctx minNr maxNr events none = .ok outcome ∧
      EchoIosubmit.ioGetevents maxNr visible completions events =
        (outcome.result.toNat, completions.drop outcome.taken, outcome.events) := by
  refine ⟨_, ioGetevents_of_available answer events some fits, ?_⟩
  have inRing := available_le ctx maxNr
  have number : min (shown ctx).length (maxNr - 0) = available ctx maxNr := rfl
  rw [EchoIosubmit.ioGetevents, reapLoop_eq, ← shows, number]
  simp only [Nat.zero_add, Int.toNat_natCast, Prod.mk.injEq, true_and]
  refine ⟨?_, rfl⟩
  rw [← List.drop_append_of_le_length inRing, shows, List.take_append_drop]

/-- A system call that waits for both. -/
def bothCompletions : Syscall Nat := fun minNr nr =>
  if minNr ≤ 2 ∧ 2 ≤ nr then some [43, 44] else none

theorem contract_bothCompletions : Contract [43, 44] bothCompletions := by
  intro minNr nr more called
  simp only [bothCompletions, Option.ite_none_right_eq_some, Option.some.injEq] at called
  obtain ⟨⟨least, most⟩, rfl⟩ := called
  exact ⟨least, most, List.prefix_refl _⟩

/-- One completion is waited for, and there. -/
theorem honours_iff_one :
    ∃ outcome, ioGetevents bothCompletions (some oneCompletion) 1 2 (fun _ => 0) none =
      .ok outcome ∧ Honours (some oneCompletion) [43, 44] 1 2 outcome :=
  (honours_iff bothCompletions (some oneCompletion) [43, 44] 1 2 (fun _ => 0) (by decide)
    contract_bothCompletions (by decide)).mpr ⟨by decide, by decide, nofun⟩

/-- Two completions are waited for, and one is returned. -/
theorem not_honours :
    Contract [43, 44] bothCompletions ∧ shown (some oneCompletion) <+: [43, 44] ∧
    (∃ outcome, ioGetevents bothCompletions (some oneCompletion) 2 2 (fun _ => 0) none =
      .ok outcome ∧ outcome.result = 1) ∧
    ¬ ∃ outcome, ioGetevents bothCompletions (some oneCompletion) 2 2 (fun _ => 0) none =
      .ok outcome ∧ Honours (some oneCompletion) [43, 44] 2 2 outcome := by
  have ordered : shown (some oneCompletion) <+: [43, 44] := by decide
  have returned : ioGetevents bothCompletions (some oneCompletion) 2 2 (fun _ => 0) none = .ok _ :=
    ioGetevents_of_available bothCompletions (fun _ => 0) (by decide) (by decide)
  simp only [returned, Except.ok.injEq, exists_eq_left',
    honours_taken_iff (fun _ => 0) ordered (show (2 : Int) ≤ 2 by decide)
      (show available (some oneCompletion) 2 ≠ 0 by decide)]
  exact ⟨contract_bothCompletions, ordered, rfl, by decide⟩

end CloudflareBlog.TcpSplice.Iosubmit
