import CloudflareBlog.Mmuniq.Run

/-!
# The buffers of `mmuniq.c`

Where `process_flush` appends to `out_buf` in a run, and how far it gets.  The relations
`FlushedInBatch` to `FlushedInRun` follow the program down to the single call of `process_flush`:
they hold of a line and of the globals that call finds, also in a round at whose end `write` fails.

The bytes in `out_buf` and those the pending batch can add to it are paid for by bytes taken out of
the read buffer, a newline by the newline of the line.  Only the line that is a full buffer has no
newline to pay with, hence `BUF_SZ + 1`.
-/

namespace CloudflareBlog.Mmuniq

open CloudflareBlog.Lib.Buffer CloudflareBlog.Lib.Records

variable (env : Env)

/-! ## The calls of `process_flush` -/

/-- The loop over the batch calls `process_flush` on `c` with the globals `called`. -/
def FlushedInBatch (buf : Nat → Byte) (g : Globals) (c : CLine) (called : Globals) : Prop :=
  ∃ before after, g.cLines.take cLineSz = before ++ c :: after ∧
    before.foldlM (fun g c => processFlush env buf c g) g = some called

/-- The globals of `process_line` after the line is put into the batch. -/
def push (line : Option CLine) (g : Globals) : Globals :=
  match line with
  | none => g
  | some c => { g with cLines := g.cLines ++ [c] }

/-- A call of `process_line` calls `process_flush` on `c` with the globals `called`. -/
def FlushedInLine (buf : Nat → Byte) (line : Option CLine) (force : Bool) (g : Globals) (c : CLine)
    (called : Globals) : Prop :=
  (force ∨ (push line g).cLines.length = cLineSz) ∧ FlushedInBatch env buf (push line g) c called

/-- The inner loop of `main` calls `process_flush` on `c` with the globals `called`. -/
inductive FlushedInLines (buf : Nat → Byte) (size : Nat) (c : CLine) (called : Globals) :
    Nat → Nat → Globals → Prop
  | here {rounds bufPos nlIdx : Nat} {h : BitVec 64} {g : Globals}
      (found : env.finder.findNlAndHash buf bufPos (size - bufPos) = (some nlIdx, h))
      (flushed : FlushedInLine env buf (some ⟨bufPos, nlIdx - bufPos, h⟩) false g c called) :
      FlushedInLines buf size c called (rounds + 1) bufPos g
  | later {rounds bufPos nlIdx : Nat} {h : BitVec 64} {r : BitVec 32} {g next : Globals}
      (found : env.finder.findNlAndHash buf bufPos (size - bufPos) = (some nlIdx, h))
      (runs : processLine env buf (some ⟨bufPos, nlIdx - bufPos, h⟩) false g = some (r, next))
      (flushed : FlushedInLines buf size c called rounds (nlIdx + 1) next) :
      FlushedInLines buf size c called (rounds + 1) bufPos g

/-- The loop body of `main` calls `process_flush` on `c` with the globals `called`: for a line of the
buffer, for what is left of the batch behind them, or for the whole buffer. -/
inductive FlushedInIteration (state : State) (chunk : List Byte) (c : CLine) (called : Globals) :
    Prop
  | inner (flushed : FlushedInLines env (store state.buf state.bufPos chunk)
      (state.bufPos + chunk.length) c called (state.bufPos + chunk.length) 0 state.globals)
  | pending {taken : Nat} {res : BitVec 32} {g : Globals}
      (runs : takeLines env (store state.buf state.bufPos chunk) (state.bufPos + chunk.length)
        (state.bufPos + chunk.length) 0 state.res state.globals = some (taken, res, g))
      (flushed : FlushedInLine env (store state.buf state.bufPos chunk) none true g c called)
  | whole {taken : Nat} {res r : BitVec 32} {g next : Globals} {buf : Nat → Byte}
      (runs : takeLines env (store state.buf state.bufPos chunk) (state.bufPos + chunk.length)
        (state.bufPos + chunk.length) 0 state.res state.globals = some (taken, res, g))
      (forced : processLine env (store state.buf state.bufPos chunk) none true g = some (r, next))
      (moved : buf = move (store state.buf state.bufPos chunk) taken
        (state.bufPos + chunk.length - taken))
      (full : state.bufPos + chunk.length - taken = bufSz ∨ chunk = [])
      (flushed : FlushedInLine env buf (some ⟨0, bufSz, (env.finder.findNlAndHash buf 0 bufSz).2⟩)
        true next c called)

/-- The program reaches a `read` after `before` and asks it for `BUF_SZ - buf_pos` bytes. -/
def AtRead (state : State) (before : List (Option (List Byte))) (reached : State) : Prop :=
  mainLoop env state before = .loop reached ∧ reached.res = 0

/-- A run of `main` calls `process_flush` on `c` with the globals `called`. -/
def FlushedInRun (state : State) (reads : List (Option (List Byte))) (c : CLine)
    (called : Globals) : Prop :=
  ∃ before chunk rest reached, reads = before ++ some chunk :: rest ∧
    AtRead env state before reached ∧ FlushedInIteration env reached chunk c called

/-! ## Their bounds -/

/-- What `process_flush` appends fits if the globals with the whole batch flushed fit. -/
theorem FlushedInBatch.bound {buf : Nat → Byte} {g called : Globals} {c : CLine}
    (flushed : FlushedInBatch env buf g c called) (short : g.cLines.length ≤ cLineSz)
    (room : (settle env buf g).outBuf.length ≤ bufSz + 1)
    (prints : prints env.globalRepeated (hashInsert c.h called.globalBm called.globalSizeMask.mask).1) :
    called.outBuf.length + c.l + 1 ≤ bufSz + 1 := by
  obtain ⟨before, after, cut, runs⟩ := flushed
  rw [List.take_of_length_le short] at cut
  have whole : (settle env buf g).outBuf.length =
      (flushAll env (batch buf after)
        (flush env (slice buf c.s c.l) c.h (flushAll env (batch buf before) g))).outBuf.length := by
    simp only [settle, cut, batch, List.map_append, List.map_cons, flushAll_append, flushAll_cons]
  have later := outBuf_le_flushAll env (batch buf after)
    (flush env (slice buf c.s c.l) c.h (flushAll env (batch buf before) g))
  have earlier := outBuf_le_flush env (slice buf c.s c.l) c.h (flushAll env (batch buf before) g)
  rw [foldlM_processFlush env buf before g (by omega), Option.some.injEq] at runs
  subst runs
  have appended : (flush env (slice buf c.s c.l) c.h (flushAll env (batch buf before) g)).outBuf =
      (flushAll env (batch buf before) g).outBuf ++ slice buf c.s c.l ++ [newline] := by
    simp only [flush]
    rw [if_pos prints]
  rw [appended] at later
  simp only [List.length_append, length_slice, List.length_singleton] at later
  omega

theorem found_inside {buf : Nat → Byte} {bufPos count nlIdx : Nat} {h : BitVec 64}
    (found : env.finder.findNlAndHash buf bufPos count = (some nlIdx, h)) :
    ∃ index < count, nlIdx = bufPos + index ∧ h = env.finder.lineHash (slice buf bufPos index) := by
  obtain ⟨missing, -⟩ | ⟨index, bound, there, -, -⟩ := memchr_cases buf newline bufPos count
  · rw [find_absent env missing] at found
    cases found
  · rw [find_newline env there] at found
    cases found
    exact ⟨index, bound, rfl, rfl⟩

/-- A line put into the batch takes the room of its bytes and its newline. -/
theorem settle_push_le (buf : Nat → Byte) (g : Globals) (c : CLine) :
    (settle env buf (push (some c) g)).outBuf.length ≤
      (settle env buf g).outBuf.length + (c.l + 1) := by
  have grown := outBuf_flush_le env (slice buf c.s c.l) c.h (settle env buf g)
  rw [length_slice] at grown
  rw [push, settle_push]
  exact grown

/-- The calls in the inner loop, under the invariant of `takeLines_eq`. -/
theorem FlushedInLines.bound {buf : Nat → Byte} {size rounds bufPos : Nat} {g called : Globals}
    {c : CLine} (flushed : FlushedInLines env buf size c called rounds bufPos g)
    (short : g.cLines.length < cLineSz)
    (room : (settle env buf g).outBuf.length + (size - bufPos) ≤ bufSz + 1)
    (prints : prints env.globalRepeated (hashInsert c.h called.globalBm called.globalSizeMask.mask).1) :
    called.outBuf.length + c.l + 1 ≤ bufSz + 1 := by
  -- along the calls, the batch and the rest of the buffer together fit into `out_buf`
  induction flushed with
  | @here rounds bufPos nlIdx h g found flushed =>
    obtain ⟨index, bound, rfl, rfl⟩ := found_inside env found
    refine flushed.2.bound env ?_ ?_ prints
    · rw [push, List.length_append, List.length_singleton]
      omega
    · refine Nat.le_trans (settle_push_le env buf g _) ?_
      simp only
      omega
  | @later rounds bufPos nlIdx h r g next found runs flushed inductionHypothesis =>
    obtain ⟨index, bound, rfl, rfl⟩ := found_inside env found
    have grown := settle_push_le env buf g
      ⟨bufPos, bufPos + index - bufPos, env.finder.lineHash (slice buf bufPos index)⟩
    simp only [push, settle_push] at grown
    obtain ⟨pushed, runsPushed, settled, shortNext⟩ := processLine_push env buf
      ⟨bufPos, bufPos + index - bufPos, env.finder.lineHash (slice buf bufPos index)⟩ short
      (by simp only; omega)
    rw [runs] at runsPushed
    cases runsPushed
    refine inductionHypothesis shortNext ?_
    rw [settled]
    simp only
    omega

/-- Every call in the loop body, whatever `write` returns. -/
theorem FlushedInIteration.bound {state : State} {unfinished chunk : List Byte} {called : Globals}
    {c : CLine} (flushed : FlushedInIteration env state chunk c called)
    (ready : Ready state unfinished) (fits : chunk.length ≤ bufSz - state.bufPos)
    (prints : prints env.globalRepeated (hashInsert c.h called.globalBm called.globalSizeMask.mask).1) :
    called.outBuf.length + c.l + 1 ≤ bufSz + 1 := by
  have position := ready.position
  have shortStart := ready.short
  have few : state.globals.cLines.length < cLineSz := by
    rw [ready.flushed]
    exact Nat.zero_lt_succ _
  have room : (settle env (store state.buf state.bufPos chunk) state.globals).outBuf.length +
      (state.bufPos + chunk.length - 0) ≤ bufSz + 1 := by
    rw [settle_of_nil env ready.flushed, ready.written, List.length_nil]
    omega
  cases flushed with
  | inner flushed => exact flushed.bound env few room prints
  | pending runs flushed =>
    obtain ⟨stop, stopBound, next, taken, -, -, fewNext, roomNext⟩ :=
      takeLines_eq env (store state.buf state.bufPos chunk) (state.bufPos + chunk.length)
        (state.bufPos + chunk.length) 0 state.globals state.res (by omega) (by omega) few room
    rw [runs] at taken
    cases taken
    refine flushed.2.bound env (Nat.le_of_lt fewNext) ?_ prints
    rw [push]
    omega
  | @whole taken res r g next buf runs forced moved full flushed =>
    obtain ⟨stop, stopBound, other, runsOther, forcedOther, left⟩ :=
      iteration_lines env chunk ready fits
    rw [runs] at runsOther
    cases runsOther
    rw [forced] at forcedOther
    -- there is no line in the buffer, so nothing was written that could have failed
    have none : (lines newline (unfinished ++ chunk)).1 = [] := by
      obtain filled | ended := full
      · refine lines_eq_nil ?_
        rw [left, length_slice, List.length_append]
        omega
      · rw [ended, List.append_nil, lines_absent ready.absent]
    rw [none, hashed, List.map_nil, emit, flushAll_nil, commit_of_nil env ready.written] at forcedOther
    cases forcedOther
    refine flushed.2.bound env ?_ ?_ prints
    · rw [push, List.length_append, ready.flushed]
      exact (by decide : 0 + 1 ≤ cLineSz)
    · refine Nat.le_trans (settle_push_le env buf _ _) ?_
      rw [settle_of_nil env ready.flushed, ready.written, List.length_nil]
      simp only
      omega

/-! ## What a round leaves in `out_buf` -/

theorem outBuf_flushAll_le (lines : List (List Byte × BitVec 64)) (g : Globals) :
    (flushAll env lines g).outBuf.length ≤
      g.outBuf.length + (lines.map (·.1.length + 1)).sum := by
  induction lines generalizing g with
  | nil => simp
  | cons line lines inductionHypothesis =>
    have first := outBuf_flush_le env line.1 line.2 g
    have later := inductionHypothesis (flush env line.1 line.2 g)
    rw [flushAll_cons, List.map_cons, List.sum_cons]
    omega

/-- Lines that fit into the buffer leave room in `out_buf`, also when the write fails. -/
theorem outBuf_emit_le {lines : List (List Byte × BitVec 64)} {g : Globals} (empty : g.outBuf = [])
    (fits : (lines.map (·.1.length + 1)).sum ≤ bufSz + 1) :
    (emit env lines g).2.outBuf.length ≤ bufSz + 1 := by
  have flushed := outBuf_flushAll_le env lines g
  rw [empty, List.length_nil] at flushed
  rw [emit]
  obtain success | failure := commit_cases env (flushAll env lines g)
  · rw [success]
    exact Nat.zero_le _
  · rw [failure]
    simp only
    omega

theorem sum_hashed (ls : List (List Byte)) :
    ((hashed env ls).map (·.1.length + 1)).sum = (ls.map (·.length + 1)).sum := by
  simp [hashed, Function.comp_def]

theorem iteration_outBuf_le {state next : State} {unfinished chunk : List Byte}
    (ready : Ready state unfinished) (nonempty : chunk ≠ [])
    (fits : chunk.length ≤ bufSz - state.bufPos)
    (runs : iteration env state (some chunk) = .loop next) :
    next.globals.outBuf.length ≤ bufSz + 1 := by
  have position := ready.position
  have short := ready.short
  have total := lines_length newline (unfinished ++ chunk)
  rw [List.length_append] at total
  by_cases full : (lines newline (unfinished ++ chunk)).2.length = bufSz
  · obtain ⟨other, runsOther, -, globals, -⟩ := iteration_full env ready nonempty fits full
    rw [runs] at runsOther
    cases runsOther
    rw [globals, outBuf_growTable]
    refine outBuf_emit_le env ready.written ?_
    rw [sum_hashed, List.map_singleton, List.sum_singleton, full]
  · obtain ⟨other, runsOther, -, globals, -⟩ := iteration_open env ready nonempty fits full
    rw [runs] at runsOther
    cases runsOther
    rw [globals, outBuf_growTable]
    refine outBuf_emit_le env ready.written ?_
    rw [sum_hashed]
    omega

variable {env}

theorem Rounds.outBuf_le {state reached : State} {chunks : List (List Byte)}
    {unfinished : List Byte} (rounds : Rounds env state chunks reached)
    (ready : state.res = 0 → Ready state unfinished)
    (room : state.globals.outBuf.length ≤ bufSz + 1) :
    reached.globals.outBuf.length ≤ bufSz + 1 := by
  induction rounds generalizing unfinished with
  | done state => exact room
  | round before nonempty fits runs rounds inductionHypothesis =>
    obtain ⟨-, -, readyNext⟩ := iteration_loop env (ready before) nonempty fits runs
    exact inductionHypothesis readyNext
      (iteration_outBuf_le env (ready before) nonempty fits runs)

theorem mainLoop_outBuf_le {state : State} {unfinished : List Byte}
    {reads : List (Option (List Byte))} {g : Globals}
    (ready : state.res = 0 → Ready state unfinished) (delivers : Delivers env state reads)
    (room : state.globals.outBuf.length ≤ bufSz + 1)
    (ended : (mainLoop env state reads).globals? = some g) : g.outBuf.length ≤ bufSz + 1 := by
  obtain ⟨chunks, reached, rounds, rfl | ⟨⟨left, readyReached⟩, rfl⟩⟩ :=
    mainLoop_globals ready delivers ended
  · exact rounds.outBuf_le ready room
  · refine outBuf_emit_le env readyReached.written ?_
    rw [List.map_singleton, List.sum_singleton, length_slice]

/-! ## Whole runs -/

/-- Every `read` asks for at least a byte behind bytes without a newline and finds `out_buf` empty;
what `process_flush` appends fits into `out_buf`, with room to spare in the memory behind it; and the
program does not abort. -/
theorem buffers_in_bounds (env : Env) (sizeMask : SizeMask) (reads : List (Option (List Byte)))
    (delivers : Delivers env (start env sizeMask) reads) :
    (∀ before rest reached, reads = before ++ rest →
      AtRead env (start env sizeMask) before reached →
        1 ≤ bufSz - reached.bufPos ∧ newline ∉ slice reached.buf 0 reached.bufPos ∧
          reached.globals.outBuf = []) ∧
    (∀ c called, FlushedInRun env (start env sizeMask) reads c called →
      prints env.globalRepeated (hashInsert c.h called.globalBm called.globalSizeMask.mask).1 →
        called.outBuf.length + c.l + 1 ≤ bufSz + 1 ∧
          called.outBuf.length + c.l + 1 ≤ 2 * bufSz) ∧
    (∀ g, (mainLoop env (start env sizeMask) reads).globals? = some g →
      g.outBuf.length ≤ bufSz + 1) ∧
    mainLoop env (start env sizeMask) reads ≠ .abort := by
  have ready := ready_start env sizeMask
  refine ⟨?_, ?_, fun g ended => mainLoop_outBuf_le ready delivers (Nat.zero_le _) ended,
    mainLoop_ne_abort ready delivers⟩
  · rintro before rest reached rfl ⟨loops, running⟩
    obtain ⟨unfinished, there⟩ := ready_of_loop ready delivers.of_append loops running
    have position := there.position
    have short := there.short
    refine ⟨by omega, ?_, there.written⟩
    rw [there.content]
    exact there.absent
  · rintro c called ⟨before, chunk, rest, reached, rfl, ⟨loops, running⟩, flushed⟩ prints
    obtain ⟨unfinished, there⟩ := ready_of_loop ready delivers.of_append loops running
    have fits := ((delivers.rest loops) running).1
    have bound := flushed.bound env there fits prints
    -- `out_buf` is twice as large as the buffer that is read into
    have spare : bufSz + 1 ≤ 2 * bufSz := by decide
    exact ⟨bound, Nat.le_trans bound spare⟩

/-- Two lines, and an output that takes nothing. -/
theorem buffers_in_bounds_two :
    mainLoop { filled 6 with write := fun _ _ => -1 } (start { filled 6 with write := fun _ _ => -1 }
      ⟨3, 2, rfl⟩) [some [97, 10, 98, 10], some []] ≠ .abort :=
  (buffers_in_bounds { filled 6 with write := fun _ _ => -1 } ⟨3, 2, rfl⟩
    [some [97, 10, 98, 10], some []] (delivers_of_fits _ [[97, 10, 98, 10]] (ready_start _ _)
      (by decide) [some []] (.inr rfl))).2.2.2

end CloudflareBlog.Mmuniq
