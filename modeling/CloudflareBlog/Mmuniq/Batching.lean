import CloudflareBlog.Mmuniq.Bounds

/-!
# Batching in `mmuniq.c`

`process_line` queues lines and flushes the queue when it is full and before a write.  Beside it stands
the program that flushes each line at once (`atOnce`), and both are run on the calls that `main` makes:
rounds of lines that are not forced and one call that is.

The two runs agree on the globals before each write and at the end, and abort together
(`batching_invisible`): the globals with the pending lines flushed are those of the other program
(`settled_queue`).  This also holds where a flush aborts, and for lines that need not have come from the
read buffer, so nothing is asked of the room in `out_buf`.
-/

namespace CloudflareBlog.Mmuniq

open CloudflareBlog.Lib.Buffer

/-- Calls of `process_line` on lines of one buffer: any number with `force` 0, then one with `force` 1.
After it `main` may go on to grow the table. -/
structure Round where
  buf : Nat → Byte
  lines : List CLine
  last : Option CLine
  grows : Bool

section

variable (env : Env)

/-- `process_line` up to the write (`processLine_eq`). -/
def untilWrite (buf : Nat → Byte) (line : Option CLine) (force : Bool) (g : Globals) :
    Option Globals :=
  if force ∨ (push line g).cLines.length = cLineSz then flushLines env buf (push line g)
  else some (push line g)

theorem processLine_eq (buf : Nat → Byte) (line : Option CLine) (force : Bool) (g : Globals) :
    processLine env buf line force g = (untilWrite env buf line force g).map fun g =>
      if force ∧ g.outBuf ≠ [] then writeOut env g else (0, g) := by
  rw [untilWrite, Option.map_eq_bind]
  by_cases flushes : force ∨ (push line g).cLines.length = cLineSz
  · rw [if_pos flushes]
    exact if_pos flushes
  · rw [if_neg flushes]
    exact if_neg flushes

/-- The same with `process_flush` on the line in place of the queue. -/
def atOnce (buf : Nat → Byte) (line : Option CLine) (_force : Bool) (g : Globals) : Option Globals :=
  match line with
  | none => some g
  | some c => processFlush env buf c g

/-- The calls of a round that are not forced. -/
def unforced (call : (Nat → Byte) → Option CLine → Bool → Globals → Option Globals)
    (buf : Nat → Byte) (lines : List CLine) (g : Globals) : Option Globals :=
  lines.foldlM (fun g c => call buf (some c) false g) g

/-- The write behind a forced call, and the end of the loop body of `main`. -/
def afterRound (round : Round) (full : Globals) : Globals :=
  let written := (commit env full).2
  if round.grows then growTable env written else written

/-- Rounds of calls, given by what a call does before the write: the globals just before each write,
and the globals at the end unless a call aborted. -/
def runRounds (call : (Nat → Byte) → Option CLine → Bool → Globals → Option Globals) :
    List Round → Globals → List Globals × Option Globals
  | [], g => ([], some g)
  | round :: rest, g =>
    match (unforced call round.buf round.lines g).bind (call round.buf round.last true) with
    | none => ([], none)
    | some full =>
      let later := runRounds call rest (afterRound env round full)
      (if full.outBuf = [] then later.1 else full :: later.1, later.2)

/-! ## Flushing does not look at the queue -/

theorem processFlush_setCLines (buf : Nat → Byte) (c : CLine) (g : Globals) (cLines : List CLine) :
    processFlush env buf c { g with cLines } =
      (processFlush env buf c g).map fun g => { g with cLines } := by
  rw [processFlush, processFlush]
  by_cases above : prints env.globalRepeated (hashInsert c.h g.globalBm g.globalSizeMask.mask).1 ∧
      bufSz + 1 < (flush env (slice buf c.s c.l) c.h g).outBuf.length
  · rw [if_pos above]
    exact if_pos above
  · rw [if_neg above]
    exact if_neg above

theorem foldlM_processFlush_setCLines (buf : Nat → Byte) (batch cLines : List CLine) (g : Globals) :
    batch.foldlM (fun g c => processFlush env buf c g) { g with cLines } =
      (batch.foldlM (fun g c => processFlush env buf c g) g).map fun g => { g with cLines } := by
  induction batch generalizing g with
  | nil => rfl
  | cons c batch inductionHypothesis =>
    rw [List.foldlM_cons, List.foldlM_cons, processFlush_setCLines]
    cases processFlush env buf c g with
    | none => rfl
    | some next => exact inductionHypothesis next

theorem cLines_processFlush {buf : Nat → Byte} {c : CLine} {g next : Globals}
    (flushed : processFlush env buf c g = some next) : next.cLines = g.cLines := by
  simp only [processFlush] at flushed
  split at flushed
  · cases flushed
  · cases flushed
    rfl

theorem cLines_atOnce {buf : Nat → Byte} {line : Option CLine} {force : Bool} {g next : Globals}
    (called : atOnce env buf line force g = some next) : next.cLines = g.cLines := by
  cases line with
  | none => cases called; rfl
  | some c => exact cLines_processFlush env called

theorem cLines_unforced_atOnce {buf : Nat → Byte} {lines : List CLine} {g next : Globals}
    (called : unforced (atOnce env) buf lines g = some next) : next.cLines = g.cLines := by
  induction lines generalizing g with
  | nil => cases called; rfl
  | cons c lines inductionHypothesis =>
    rw [unforced, List.foldlM_cons, Option.bind_eq_bind, Option.bind_eq_some_iff] at called
    obtain ⟨between, first, others⟩ := called
    rw [inductionHypothesis others]
    exact cLines_atOnce env first

@[simp] theorem cLines_commit (g : Globals) : (commit env g).2.cLines = g.cLines := by
  obtain success | failure := commit_cases env g
  · rw [success]
  · rw [failure]

/-! ## The queue is a delay -/

/-- The globals with the pending lines flushed, unless that aborts. -/
def settled (buf : Nat → Byte) (g : Globals) : Option Globals :=
  unforced (atOnce env) buf g.cLines { g with cLines := [] }

theorem settled_of_nil {buf : Nat → Byte} {g : Globals} (empty : g.cLines = []) :
    settled env buf g = some g := by
  cases g
  subst empty
  rfl

theorem settled_push (buf : Nat → Byte) (line : Option CLine) (force : Bool) (g : Globals) :
    settled env buf (push line g) = (settled env buf g).bind (atOnce env buf line force) := by
  cases line with
  | none => exact (Option.bind_fun_some _).symm
  | some c =>
    simp only [settled, unforced, push, List.foldlM_append, List.foldlM_cons, List.foldlM_nil]
    exact congrArg _ (funext fun g => Option.bind_fun_some _)

/-- The loop over a queue that is not longer than `c_lines` flushes all of it. -/
theorem flushLines_eq_settled {buf : Nat → Byte} {g : Globals} (short : g.cLines.length ≤ cLineSz) :
    flushLines env buf g = settled env buf g := by
  rw [flushLines, List.take_of_length_le short]
  exact (Option.map_eq_bind ..).symm.trans
    (foldlM_processFlush_setCLines env buf g.cLines [] g).symm

theorem length_push_le {line : Option CLine} {g : Globals} (short : g.cLines.length < cLineSz) :
    (push line g).cLines.length ≤ cLineSz := by
  cases line with
  | none => exact Nat.le_of_lt short
  | some c =>
    rw [push, List.length_append, List.length_singleton]
    exact short

theorem cLines_settled {buf : Nat → Byte} {g next : Globals}
    (flushed : settled env buf g = some next) : next.cLines = [] :=
  cLines_unforced_atOnce env flushed

theorem settled_untilWrite (buf : Nat → Byte) (c : CLine) {g : Globals}
    (short : g.cLines.length < cLineSz) :
    (untilWrite env buf (some c) false g).bind (settled env buf) =
        (settled env buf g).bind (atOnce env buf (some c) false) ∧
      ∀ next, untilWrite env buf (some c) false g = some next → next.cLines.length < cLineSz := by
  rw [← settled_push, untilWrite]
  by_cases full : (push (some c) g).cLines.length = cLineSz
  -- this line fills the queue, which is flushed at once; otherwise it waits
  · rw [if_pos (.inr full), flushLines_eq_settled env (Nat.le_of_eq full)]
    constructor
    · cases flushed : settled env buf (push (some c) g) with
      | none => rfl
      | some next => exact settled_of_nil env (cLines_settled env flushed)
    · intro next flushed
      rw [cLines_settled env flushed]
      exact Nat.zero_lt_succ _
  · rw [if_neg (by simp only [Bool.false_eq_true, false_or]; exact full)]
    constructor
    · rfl
    · intro next same
      cases same
      exact Nat.lt_of_le_of_ne (length_push_le short) full

/-- The calls that are not forced: flushing the queue behind them gives what flushing each line at once
gives, and there is room for one more line. -/
theorem settled_queue (buf : Nat → Byte) (lines : List CLine) {g : Globals}
    (short : g.cLines.length < cLineSz) :
    (unforced (untilWrite env) buf lines g).bind (settled env buf) =
        (settled env buf g).bind (unforced (atOnce env) buf lines) ∧
      ∀ next, unforced (untilWrite env) buf lines g = some next → next.cLines.length < cLineSz := by
  induction lines generalizing g with
  | nil =>
    constructor
    · exact (Option.bind_fun_some _).symm
    · intro next same
      cases same
      exact short
  | cons c lines inductionHypothesis =>
    obtain ⟨same, room⟩ := settled_untilWrite env buf c short
    have first (call : (Nat → Byte) → Option CLine → Bool → Globals → Option Globals) (g : Globals) :
        unforced call buf (c :: lines) g =
          (call buf (some c) false g).bind (unforced call buf lines) := List.foldlM_cons
    simp only [first, ← Option.bind_assoc, ← same]
    cases called : untilWrite env buf (some c) false g with
    | none => exact ⟨rfl, nofun⟩
    | some between => exact inductionHypothesis (room between called)

theorem untilWrite_force {buf : Nat → Byte} (line : Option CLine) {g : Globals}
    (short : g.cLines.length < cLineSz) :
    untilWrite env buf line true g = (settled env buf g).bind (atOnce env buf line true) := by
  rw [untilWrite, if_pos (.inl rfl), flushLines_eq_settled env (length_push_le short), settled_push]

theorem round_untilWrite (buf : Nat → Byte) (lines : List CLine) (last : Option CLine) {g : Globals}
    (empty : g.cLines = []) :
    (unforced (untilWrite env) buf lines g).bind (untilWrite env buf last true) =
      (unforced (atOnce env) buf lines g).bind (atOnce env buf last true) := by
  have short : g.cLines.length < cLineSz := by
    rw [empty]
    exact Nat.zero_lt_succ _
  obtain ⟨same, room⟩ := settled_queue env buf lines short
  rw [settled_of_nil env empty, Option.bind_some] at same
  rw [← same, Option.bind_assoc]
  cases queued : unforced (untilWrite env) buf lines g with
  | none => rfl
  | some next => exact untilWrite_force env last (room next queued)

theorem cLines_round {round : Round} {g full : Globals}
    (called : (unforced (atOnce env) round.buf round.lines g).bind
      (atOnce env round.buf round.last true) = some full) :
    (afterRound env round full).cLines = g.cLines := by
  obtain ⟨between, first, forced⟩ := Option.bind_eq_some_iff.mp called
  rw [afterRound, apply_ite Globals.cLines, cLines_growTable, ite_self, cLines_commit,
    cLines_atOnce env forced, cLines_unforced_atOnce env first]

/-! ## Runs -/

theorem runRounds_eq (rounds : List Round) {g : Globals} (empty : g.cLines = []) :
    runRounds env (untilWrite env) rounds g = runRounds env (atOnce env) rounds g := by
  induction rounds generalizing g with
  | nil => rfl
  | cons round rest inductionHypothesis =>
    rw [runRounds, runRounds, round_untilWrite env round.buf round.lines round.last empty]
    cases called : (unforced (atOnce env) round.buf round.lines g).bind
        (atOnce env round.buf round.last true) with
    | none => rfl
    | some full =>
      dsimp only
      rw [inductionHypothesis ((cLines_round env called).trans empty)]

theorem cLines_runRounds {rounds : List Round} {g reached : Globals}
    (ends : (runRounds env (atOnce env) rounds g).2 = some reached) : reached.cLines = g.cLines := by
  induction rounds generalizing g with
  | nil => cases ends; rfl
  | cons round rest inductionHypothesis =>
    rw [runRounds] at ends
    cases called : (unforced (atOnce env) round.buf round.lines g).bind
        (atOnce env round.buf round.last true) with
    | none =>
      rw [called] at ends
      cases ends
    | some full =>
      rw [called] at ends
      exact (inductionHypothesis ends).trans (cLines_round env called)

/-- For all lines, hashes, results of `write` and resizes in between: the globals before each write and
at the end are those of the program that flushes each line at once, and every line is stored below
`C_LINE_SZ`. -/
theorem batching_invisible (rounds : List Round) (g : Globals) (empty : g.cLines = []) :
    runRounds env (untilWrite env) rounds g = runRounds env (atOnce env) rounds g ∧
      ∀ done round rest, rounds = done ++ round :: rest →
        ∀ before c after, round.lines ++ round.last.toList = before ++ c :: after →
          ∀ reached called, (runRounds env (untilWrite env) done g).2 = some reached →
            unforced (untilWrite env) round.buf before reached = some called →
              called.cLines.length < cLineSz := by
  refine ⟨runRounds_eq env rounds empty, ?_⟩
  intro done round _ _ before _ _ _ reached called ends queued
  rw [runRounds_eq env done empty] at ends
  have short : reached.cLines.length < cLineSz := by
    rw [cLines_runRounds env ends, empty]
    exact Nat.zero_lt_succ _
  exact (settled_queue env round.buf before short).2 called queued

end

/-- Two lines in one read, and the end of the input. -/
theorem batching_invisible_two :
    let rounds : List Round :=
      [⟨store (fun _ => 0) 0 [97, 10, 98, 10], [⟨0, 1, 5⟩, ⟨2, 1, 7⟩], none, true⟩,
        ⟨fun _ => 0, [], some ⟨0, 1, 9⟩, false⟩]
    runRounds (filled 6) (untilWrite (filled 6)) rounds (start (filled 6) ⟨3, 2, rfl⟩).globals =
      runRounds (filled 6) (atOnce (filled 6)) rounds (start (filled 6) ⟨3, 2, rfl⟩).globals :=
  (batching_invisible (filled 6) _ _ rfl).1

/-- The second of the two lines is stored behind the first, and both are there before the write. -/
example : (runRounds (filled 6) (untilWrite (filled 6))
    [⟨store (fun _ => 0) 0 [97, 10, 98, 10], [⟨0, 1, 5⟩, ⟨2, 1, 7⟩], none, true⟩]
    (start (filled 6) ⟨3, 2, rfl⟩).globals).1.map Globals.outBuf = [[97, 10, 98, 10]] := by
  decide +kernel

end CloudflareBlog.Mmuniq
