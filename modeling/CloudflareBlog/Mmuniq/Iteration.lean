import CloudflareBlog.Lib.Records
import CloudflareBlog.Mmuniq.Program

/-!
# One round of `mmuniq.c`

What a round of the loop in `main` comes to when the buffering is taken away: the records that end
in the piece read are flushed one after another, what was appended to `out_buf` is written, and the
table is grown if need be (`iteration_eq`); at the end of the input the whole buffer is flushed as
one more line (`iteration_end`).

Batching is invisible because a batch is only ever a delay: `settle` is the state with the pending
lines flushed, and adding a line to the batch flushes it in the settled state.  The `abort()` is
unreachable because a round appends to `out_buf` at most what it takes out of the read buffer.
-/

namespace CloudflareBlog.Mmuniq

open CloudflareBlog.Lib.Buffer CloudflareBlog.Lib.Records

variable (env : Env)

/-! ## Batches -/

/-- Flush lines one after another, each with its hash. -/
def flushAll (lines : List (List Byte × BitVec 64)) (g : Globals) : Globals :=
  lines.foldl (fun g line => flush env line.1 line.2 g) g

def batch (buf : Nat → Byte) (cLines : List CLine) : List (List Byte × BitVec 64) :=
  cLines.map fun c => (slice buf c.s c.l, c.h)

/-- The globals with the pending batch flushed. -/
def settle (buf : Nat → Byte) (g : Globals) : Globals :=
  { flushAll env (batch buf g.cLines) g with cLines := [] }

/-- Write `out_buf` unless it is empty, as a forced `process_line` ends. -/
def commit (g : Globals) : BitVec 32 × Globals :=
  if g.outBuf ≠ [] then writeOut env g else (0, g)

@[simp] theorem flushAll_nil (g : Globals) : flushAll env [] g = g := rfl

@[simp] theorem flushAll_cons (line : List Byte × BitVec 64) (lines : List (List Byte × BitVec 64))
    (g : Globals) :
    flushAll env (line :: lines) g = flushAll env lines (flush env line.1 line.2 g) := rfl

theorem flushAll_append (first second : List (List Byte × BitVec 64)) (g : Globals) :
    flushAll env (first ++ second) g = flushAll env second (flushAll env first g) := by
  simp [flushAll]

theorem flushAll_setCLines (lines : List (List Byte × BitVec 64)) (g : Globals)
    (cLines : List CLine) :
    flushAll env lines { g with cLines } = { flushAll env lines g with cLines } := by
  induction lines generalizing g with
  | nil => rfl
  | cons line lines inductionHypothesis =>
    rw [flushAll_cons, flushAll_cons, ← inductionHypothesis]
    rfl

theorem flushAll_cLines (lines : List (List Byte × BitVec 64)) (g : Globals) :
    (flushAll env lines g).cLines = g.cLines := by
  induction lines generalizing g with
  | nil => rfl
  | cons line lines inductionHypothesis => exact inductionHypothesis _

theorem settle_of_nil {buf : Nat → Byte} {g : Globals} (empty : g.cLines = []) :
    settle env buf g = g := by
  cases g
  subst empty
  rfl

theorem settle_push (buf : Nat → Byte) (g : Globals) (c : CLine) :
    settle env buf { g with cLines := g.cLines ++ [c] } =
      flush env (slice buf c.s c.l) c.h (settle env buf g) := by
  simp only [settle, batch, List.map_append, List.map_cons, List.map_nil, flushAll_append,
    flushAll_setCLines, flushAll_cons, flushAll_nil]
  rfl

theorem outBuf_flush_le (line : List Byte) (h : BitVec 64) (g : Globals) :
    (flush env line h g).outBuf.length ≤ g.outBuf.length + (line.length + 1) := by
  simp only [flush]
  split
  · simp
  · omega

theorem outBuf_le_flush (line : List Byte) (h : BitVec 64) (g : Globals) :
    g.outBuf.length ≤ (flush env line h g).outBuf.length := by
  simp only [flush]
  split
  · simp
  · omega

theorem outBuf_le_flushAll (lines : List (List Byte × BitVec 64)) (g : Globals) :
    g.outBuf.length ≤ (flushAll env lines g).outBuf.length := by
  induction lines generalizing g with
  | nil => exact Nat.le_refl _
  | cons line lines inductionHypothesis =>
    exact Nat.le_trans (outBuf_le_flush env line.1 line.2 g) (inductionHypothesis _)

/-- `process_flush` does not abort on the way to a buffer that fits. -/
theorem foldlM_processFlush (buf : Nat → Byte) (cLines : List CLine) (g : Globals)
    (room : (flushAll env (batch buf cLines) g).outBuf.length ≤ bufSz + 1) :
    cLines.foldlM (fun g c => processFlush env buf c g) g =
      some (flushAll env (batch buf cLines) g) := by
  induction cLines generalizing g with
  | nil => rfl
  | cons c cLines inductionHypothesis =>
    have within := outBuf_le_flushAll env (batch buf cLines) (flush env (slice buf c.s c.l) c.h g)
    have runs : processFlush env buf c g = some (flush env (slice buf c.s c.l) c.h g) := by
      rw [processFlush, if_neg]
      rintro ⟨-, above⟩
      exact absurd (Nat.le_trans within room) (by omega)
    rw [List.foldlM_cons, runs]
    exact inductionHypothesis _ room

theorem flushLines_eq {buf : Nat → Byte} {g : Globals} (short : g.cLines.length ≤ cLineSz)
    (room : (settle env buf g).outBuf.length ≤ bufSz + 1) :
    flushLines env buf g = some (settle env buf g) := by
  rw [flushLines, List.take_of_length_le short, foldlM_processFlush env buf _ _ room]
  rfl

/-! ## `process_line` -/

theorem processLine_push (buf : Nat → Byte) {g : Globals} (c : CLine)
    (short : g.cLines.length < cLineSz)
    (room : (flush env (slice buf c.s c.l) c.h (settle env buf g)).outBuf.length ≤ bufSz + 1) :
    ∃ next, processLine env buf (some c) false g = some (0, next) ∧
      settle env buf next = flush env (slice buf c.s c.l) c.h (settle env buf g) ∧
      next.cLines.length < cLineSz := by
  rw [← settle_push] at room ⊢
  by_cases full : (g.cLines ++ [c]).length = cLineSz
  · refine ⟨settle env buf { g with cLines := g.cLines ++ [c] }, ?_, settle_of_nil env rfl, ?_⟩
    · simp only [processLine, full, Bool.false_eq_true, false_or, if_true]
      rw [flushLines_eq env (by simp; omega) room]
      rfl
    · exact Nat.zero_lt_succ _
  · refine ⟨{ g with cLines := g.cLines ++ [c] }, ?_, rfl, ?_⟩
    · simp only [processLine, full, Bool.false_eq_true, false_or, if_false]
      rfl
    · simp only [List.length_append, List.length_singleton] at full ⊢
      omega

theorem processLine_force {buf : Nat → Byte} {g : Globals} (short : g.cLines.length ≤ cLineSz)
    (room : (settle env buf g).outBuf.length ≤ bufSz + 1) :
    processLine env buf none true g = some (commit env (settle env buf g)) := by
  simp only [processLine, true_or, if_true, flushLines_eq env short room]
  simp [commit]

theorem processLine_force_line (buf : Nat → Byte) {g : Globals} (c : CLine)
    (empty : g.cLines = [])
    (room : (flush env (slice buf c.s c.l) c.h g).outBuf.length ≤ bufSz + 1) :
    processLine env buf (some c) true g =
      some (commit env (flush env (slice buf c.s c.l) c.h g)) := by
  have settled := settle_push env buf g c
  rw [settle_of_nil env empty] at settled
  rw [← settled] at room ⊢
  simp only [processLine, true_or, if_true]
  rw [flushLines_eq env (by simp [empty, cLineSz]) room]
  simp [commit]

/-! ## The lines of the buffer -/

/-- Lines with the hashes that `find_nl_and_hash` gives them. -/
def hashed (ls : List (List Byte)) : List (List Byte × BitVec 64) :=
  ls.map fun line => (line, env.finder.lineHash line)

theorem find_newline {buf : Nat → Byte} {bufPos count index : Nat}
    (found : memchr buf newline bufPos count = some (bufPos + index)) :
    env.finder.findNlAndHash buf bufPos count =
      (some (bufPos + index), env.finder.lineHash (slice buf bufPos index)) := by
  rw [env.finder.finds, lineAt, found]
  simp only [Nat.add_sub_cancel_left]

theorem find_absent {buf : Nat → Byte} {bufPos count : Nat}
    (missing : memchr buf newline bufPos count = none) :
    env.finder.findNlAndHash buf bufPos count =
      (none, env.finder.lineHash (slice buf bufPos count)) := by
  rw [env.finder.finds, lineAt, missing]

/-- The inner loop flushes, up to batching, the lines of the buffer, and stops behind the last
newline. -/
theorem takeLines_eq (buf : Nat → Byte) (size rounds bufPos : Nat) (g : Globals) (res : BitVec 32)
    (enough : size ≤ bufPos + rounds) (inside : bufPos ≤ size)
    (short : g.cLines.length < cLineSz)
    (room : (settle env buf g).outBuf.length + (size - bufPos) ≤ bufSz + 1) :
    ∃ stop ≤ size, ∃ next, takeLines env buf size rounds bufPos res g = some (stop, res, next) ∧
      (lines newline (slice buf bufPos (size - bufPos))).2 = slice buf stop (size - stop) ∧
      settle env buf next =
        flushAll env (hashed env (lines newline (slice buf bufPos (size - bufPos))).1)
          (settle env buf g) ∧
      next.cLines.length < cLineSz ∧
      (settle env buf next).outBuf.length + (size - stop) ≤ bufSz + 1 := by
  -- the batch changes from line to line; what flushing it now would give is what stays
  induction rounds generalizing bufPos g with
  | zero =>
    obtain rfl : bufPos = size := by omega
    exact ⟨bufPos, inside, g, rfl, by simp [lines], by simp [lines, hashed], short, room⟩
  | succ rounds inductionHypothesis =>
    obtain ⟨missing, absent⟩ | ⟨index, bound, found, there, absent⟩ :=
      memchr_cases buf newline bufPos (size - bufPos)
    · refine ⟨bufPos, inside, g, ?_, ?_, ?_, short, room⟩
      · rw [takeLines, find_absent env missing]
      · rw [lines_absent absent]
      · rw [lines_absent absent]
        rfl
    · have cut : slice buf bufPos (size - bufPos) = slice buf bufPos index ++
          newline :: slice buf (bufPos + index + 1) (size - (bufPos + index + 1)) := by
        rw [show size - bufPos = index + (size - (bufPos + index + 1) + 1) by omega, slice_add,
          slice_succ, there]
      have grown := outBuf_flush_le env (slice buf bufPos index)
        (env.finder.lineHash (slice buf bufPos index)) (settle env buf g)
      rw [length_slice] at grown
      obtain ⟨pushed, runs, settled, shortNext⟩ :=
        processLine_push env buf ⟨bufPos, index, env.finder.lineHash (slice buf bufPos index)⟩
          short (by simp only; omega)
      obtain ⟨stop, stopBound, next, taken, left, settledNext, shortEnd, roomEnd⟩ :=
        inductionHypothesis (bufPos + index + 1) pushed (by omega) (by omega)
          shortNext (by rw [settled]; simp only; omega)
      refine ⟨stop, stopBound, next, ?_, ?_, ?_, shortEnd, roomEnd⟩
      · rw [takeLines, find_newline env found]
        simp only [Nat.add_sub_cancel_left, runs, Option.bind_eq_bind, Option.bind_some,
          BitVec.ofNat_eq_ofNat, BitVec.or_zero]
        exact taken
      · rw [cut, lines_delimiter absent]
        exact left
      · rw [cut, lines_delimiter absent, settledNext, settled]
        rfl

/-! ## One round -/

/-- Flush lines and write out what they appended. -/
def emit (lines : List (List Byte × BitVec 64)) (g : Globals) : BitVec 32 × Globals :=
  commit env (flushAll env lines g)

theorem commit_of_nil {g : Globals} (empty : g.outBuf = []) : commit env g = (0, g) := by
  rw [commit, if_neg (not_not_intro empty)]

/-- What `commit` passes to `write`. -/
def payloads (g : Globals) : List (List Byte) := if g.outBuf = [] then [] else [g.outBuf]

theorem flatten_payloads (g : Globals) : (payloads g).flatten = g.outBuf := by
  rw [payloads]
  split
  next empty => rw [empty]; rfl
  next => exact List.flatten_singleton

theorem commit_cases (g : Globals) :
    commit env g = (0, { g with writes := g.writes ++ payloads g, outBuf := [] }) ∨
      commit env g = (-1, { g with writes := g.writes ++ payloads g }) := by
  by_cases empty : g.outBuf = []
  · left
    rw [commit_of_nil env empty, payloads, if_pos empty, List.append_nil, ← empty]
  · rw [commit, if_pos empty, payloads, if_neg empty, writeOut]
    by_cases failed : env.write g.writes.length g.outBuf.length ≤ 0
    · right
      simp only [failed, if_true]
    · left
      simp only [failed, if_false]

/-- Between two reads: everything found so far is flushed and written, and the buffer holds the
unfinished record, which leaves room for a byte. -/
structure Ready (state : State) (unfinished : List Byte) : Prop where
  running : state.res = 0
  written : state.globals.outBuf = []
  flushed : state.globals.cLines = []
  position : state.bufPos = unfinished.length
  content : slice state.buf 0 state.bufPos = unfinished
  absent : newline ∉ unfinished
  short : unfinished.length < bufSz

theorem Ready.settled {state : State} {unfinished : List Byte} (ready : Ready state unfinished) :
    settle env state.buf state.globals = state.globals :=
  settle_of_nil env ready.flushed

/-- The first half of a round: the lines of the buffer are taken out and emitted. -/
theorem iteration_lines {state : State} {unfinished : List Byte} (chunk : List Byte)
    (ready : Ready state unfinished) (fits : chunk.length ≤ bufSz - state.bufPos) :
    let buf := store state.buf state.bufPos chunk
    let size := state.bufPos + chunk.length
    let cut := lines newline (unfinished ++ chunk)
    ∃ stop ≤ size, ∃ taken, takeLines env buf size size 0 state.res state.globals =
        some (stop, 0, taken) ∧
      processLine env buf none true taken = some (emit env (hashed env cut.1) state.globals) ∧
      cut.2 = slice buf stop (size - stop) := by
  intro buf size cut
  obtain ⟨running, written, flushed, position, content, absent, short⟩ := ready
  have settled : settle env buf state.globals = state.globals := settle_of_nil env flushed
  have whole : slice buf 0 (size - 0) = unfinished ++ chunk := by
    rw [Nat.sub_zero, slice_add, slice_store_before _ _ _ (by omega), content, Nat.zero_add,
      slice_store]
  obtain ⟨stop, stopBound, taken, runs, left, settledTaken, shortTaken, roomTaken⟩ :=
    takeLines_eq env buf size size 0 state.globals state.res (by omega) (by omega)
      (by rw [flushed]; exact Nat.zero_lt_succ _)
      (by rw [settled, written]; simp only [List.length_nil]; omega)
  rw [whole] at left settledTaken
  refine ⟨stop, stopBound, taken, by rw [runs, running], ?_, left⟩
  rw [processLine_force env (by omega) (by omega), settledTaken, settled]
  rfl

theorem emit_done {lines : List (List Byte × BitVec 64)} {g : Globals}
    (done : (emit env lines g).1 = 0) :
    (emit env lines g).2.outBuf = [] ∧ (emit env lines g).2.cLines = g.cLines := by
  rw [emit] at done ⊢
  obtain success | failure := commit_cases env (flushAll env lines g)
  · rw [success]
    exact ⟨rfl, flushAll_cLines env lines g⟩
  · rw [failure] at done
    cases done

@[simp] theorem outBuf_growTable (g : Globals) : (growTable env g).outBuf = g.outBuf := by
  rw [growTable]
  split <;> rfl

@[simp] theorem cLines_growTable (g : Globals) : (growTable env g).cLines = g.cLines := by
  rw [growTable]
  split <;> rfl

/-- A round that leaves room in the buffer. -/
theorem iteration_open {state : State} {unfinished chunk : List Byte}
    (ready : Ready state unfinished) (nonempty : chunk ≠ [])
    (fits : chunk.length ≤ bufSz - state.bufPos)
    (room : (lines newline (unfinished ++ chunk)).2.length ≠ bufSz) :
    let cut := lines newline (unfinished ++ chunk)
    let emitted := emit env (hashed env cut.1) state.globals
    ∃ next, iteration env state (some chunk) = .loop next ∧ next.res = emitted.1 ∧
      next.globals = growTable env emitted.2 ∧ (emitted.1 = 0 → Ready next cut.2) := by
  intro cut emitted
  obtain ⟨stop, stopBound, taken, runs, forced, left⟩ := iteration_lines env chunk ready fits
  have tailLength : (lines newline (unfinished ++ chunk)).2.length =
      state.bufPos + chunk.length - stop := by rw [left, length_slice]
  have position := ready.position
  have short := ready.short
  -- the unfinished record moves to the front of the buffer
  let remaining := state.bufPos + chunk.length - stop
  refine ⟨⟨move (store state.buf state.bufPos chunk) stop remaining, remaining, 0 ||| emitted.1,
    growTable env emitted.2⟩, ?_, BitVec.zero_or, rfl, fun done => ?_⟩
  · simp only [iteration, runs, forced]
    rw [if_neg (by simp only [nonempty, or_false]; omega)]
  · obtain ⟨written, flushed⟩ := emit_done env done
    refine ⟨BitVec.zero_or.trans done, ?_, ?_, tailLength.symm, ?_, lines_tail_absent newline _,
      by simp only [cut]; omega⟩
    · rw [outBuf_growTable]
      exact written
    · rw [cLines_growTable]
      exact flushed.trans ready.flushed
    · rw [slice_move]
      exact left.symm

/-- A round that fills the buffer without a newline: the whole buffer is one record.  The forced
`process_line` before it has nothing to emit. -/
theorem iteration_full {state : State} {unfinished chunk : List Byte}
    (ready : Ready state unfinished) (nonempty : chunk ≠ [])
    (fits : chunk.length ≤ bufSz - state.bufPos)
    (full : (lines newline (unfinished ++ chunk)).2.length = bufSz) :
    let tail := (lines newline (unfinished ++ chunk)).2
    let emitted := emit env (hashed env [tail]) state.globals
    ∃ next, iteration env state (some chunk) = .loop next ∧ next.res = emitted.1 ∧
      next.globals = growTable env emitted.2 ∧ (emitted.1 = 0 → Ready next []) := by
  intro tail emitted
  obtain ⟨stop, stopBound, taken, runs, forced, left⟩ := iteration_lines env chunk ready fits
  have remaining : state.bufPos + chunk.length - stop = bufSz := by
    rw [← full, left, length_slice]
  have position := ready.position
  have short := ready.short
  have none : (lines newline (unfinished ++ chunk)).1 = [] :=
    lines_eq_nil (by rw [List.length_append]; omega)
  have silent : emit env (hashed env []) state.globals = (0, state.globals) :=
    commit_of_nil env ready.written
  obtain ⟨buf, moved⟩ : ∃ buf, move (store state.buf state.bufPos chunk) stop bufSz = buf :=
    ⟨_, rfl⟩
  have filled : slice buf 0 bufSz = tail := by
    rw [← moved, slice_move, ← remaining]
    exact left.symm
  -- the bytes left over have no newline, so the search runs to the end and hashes them all
  have hash : (env.finder.findNlAndHash buf 0 bufSz).2 = env.finder.lineHash tail := by
    obtain ⟨missing, -⟩ | ⟨index, bound, -, there, -⟩ := memchr_cases buf newline 0 bufSz
    · rw [find_absent env missing, filled]
    · refine absurd ?_ (lines_tail_absent newline (unfinished ++ chunk))
      change newline ∈ tail
      rw [← filled]
      exact List.mem_iff_getElem.mpr ⟨index, by simpa using bound, by rw [getElem_slice, there]⟩
  have grown := outBuf_flush_le env tail (env.finder.lineHash tail) state.globals
  rw [ready.written, List.length_nil, Nat.zero_add, full] at grown
  have last : processLine env buf (some ⟨0, bufSz, env.finder.lineHash tail⟩) true state.globals =
      some emitted := by
    rw [processLine_force_line env buf _ ready.flushed (by rw [filled]; exact grown), filled]
    rfl
  refine ⟨⟨buf, 0, 0 ||| emitted.1, growTable env emitted.2⟩, ?_, BitVec.zero_or, rfl,
    fun done => ?_⟩
  · simp only [iteration, runs, forced, none, silent, nonempty, or_false, if_false]
    rw [if_pos remaining, remaining]
    simp only [moved, hash, last]
    rfl
  · obtain ⟨written, flushed⟩ := emit_done env done
    refine ⟨BitVec.zero_or.trans done, ?_, ?_, rfl, rfl, by simp, by simp only [List.length_nil]; omega⟩
    · rw [outBuf_growTable]
      exact written
    · rw [cLines_growTable]
      exact flushed.trans ready.flushed

/-- A round on a piece that was read emits the records that end in it, grows the table, and is
ready for the next read unless `write` failed. -/
theorem iteration_eq {state : State} {unfinished chunk : List Byte}
    (ready : Ready state unfinished) (nonempty : chunk ≠ [])
    (fits : chunk.length ≤ bufSz - state.bufPos) :
    let fed := feed bufSz newline unfinished chunk
    let emitted := emit env (hashed env (fed.1.map Record.bytes)) state.globals
    ∃ next, iteration env state (some chunk) = .loop next ∧ next.res = emitted.1 ∧
      next.globals = growTable env emitted.2 ∧ (emitted.1 = 0 → Ready next fed.2) := by
  have position := ready.position
  have short := ready.short
  rw [feed_eq_lines ready.absent short (by omega)]
  by_cases full : (lines newline (unfinished ++ chunk)).2.length = bufSz
  · have none : (lines newline (unfinished ++ chunk)).1 = [] :=
      lines_eq_nil (by rw [List.length_append]; omega)
    simpa [full, none] using iteration_full env ready nonempty fits full
  · simpa [full, Function.comp_def] using iteration_open env ready nonempty fits full

theorem iteration_loop {state next : State} {unfinished chunk : List Byte}
    (ready : Ready state unfinished) (nonempty : chunk ≠ [])
    (fits : chunk.length ≤ bufSz - state.bufPos)
    (runs : iteration env state (some chunk) = .loop next) :
    let fed := feed bufSz newline unfinished chunk
    let emitted := emit env (hashed env (fed.1.map Record.bytes)) state.globals
    next.res = emitted.1 ∧ next.globals = growTable env emitted.2 ∧
      (next.res = 0 → Ready next fed.2) := by
  obtain ⟨other, runsOther, result, globals, readyNext⟩ := iteration_eq env ready nonempty fits
  rw [runs] at runsOther
  cases runsOther
  exact ⟨result, globals, fun done => readyNext (result ▸ done)⟩

/-- The last round, on a `read` that returned no byte: the whole buffer goes to `process_line` as one
line, under the hash of what stands before the first newline in it. -/
theorem iteration_end {state : State} {unfinished : List Byte} (ready : Ready state unfinished) :
    ∃ last, iteration env state (some []) = .exit last ∧
      last.globals = (emit env [(slice state.buf 0 bufSz,
        env.finder.lineHash (lineAt state.buf 0 bufSz))] state.globals).2 ∧
      last.res = (emit env [(slice state.buf 0 bufSz,
        env.finder.lineHash (lineAt state.buf 0 bufSz))] state.globals).1 := by
  obtain ⟨stop, stopBound, taken, runs, forced, left⟩ := iteration_lines env [] ready (Nat.zero_le _)
  rw [List.append_nil, lines_absent ready.absent] at left forced
  rw [List.length_nil, Nat.add_zero] at stopBound left
  -- nothing was read: the buffer stays, and the inner loop finds no newline in it
  have untouched : store state.buf state.bufPos [] = state.buf := store_nil state.buf state.bufPos
  obtain rfl : stop = 0 := by
    have := congrArg List.length left
    rw [length_slice, ← ready.position] at this
    omega
  have unmoved (count : Nat) : move state.buf 0 count = state.buf := move_zero state.buf count
  have silent : emit env (hashed env []) state.globals = (0, state.globals) :=
    commit_of_nil env ready.written
  have hash : (env.finder.findNlAndHash state.buf 0 bufSz).2 =
      env.finder.lineHash (lineAt state.buf 0 bufSz) := by rw [env.finder.finds]
  have grown := outBuf_flush_le env (slice state.buf 0 bufSz)
    (env.finder.lineHash (lineAt state.buf 0 bufSz)) state.globals
  rw [ready.written, List.length_nil, Nat.zero_add, length_slice] at grown
  have last := processLine_force_line env state.buf
    ⟨0, bufSz, env.finder.lineHash (lineAt state.buf 0 bufSz)⟩ ready.flushed grown
  simp only [silent, untouched] at forced
  simp only [untouched, List.length_nil, Nat.add_zero] at runs
  refine ⟨⟨state.buf, 0, 0 ||| (emit env [(slice state.buf 0 bufSz,
    env.finder.lineHash (lineAt state.buf 0 bufSz))] state.globals).1, _⟩, ?_, rfl,
    BitVec.zero_or⟩
  simp only [iteration, untouched, List.length_nil, Nat.add_zero, runs, forced, unmoved, hash, last,
    or_true, if_true]
  rfl

/-- What the round leaves that ends the program. -/
theorem iteration_exit {state last : State} {unfinished : List Byte} (ready : Ready state unfinished)
    (exits : iteration env state (some []) = .exit last) :
    last.globals = (emit env [(slice state.buf 0 bufSz,
        env.finder.lineHash (lineAt state.buf 0 bufSz))] state.globals).2 ∧
      last.res = (emit env [(slice state.buf 0 bufSz,
        env.finder.lineHash (lineAt state.buf 0 bufSz))] state.globals).1 := by
  obtain ⟨other, exitsOther, result⟩ := iteration_end env ready
  rw [exits] at exitsOther
  cases exitsOther
  exact result

end CloudflareBlog.Mmuniq
