import CloudflareBlog.Mmuniq.Run

/-!
# `mmuniq.c` misses no line silently

A line is left out of the output when its hash is in the table already or when the probing gives
up.  Every hash in the table is that of a printed line, also after a resize, and every insertion
that gives up is counted (`Accounted`).  So while `overflow_count` is 0, a hash function that tells
the lines of the input apart loses none of them (`every_line_written`).
-/

namespace CloudflareBlog.Mmuniq

open CloudflareBlog.Lib.Buffer CloudflareBlog.Lib.Records CloudflareBlog.Lib.LinearProbing

/-- The table holds hashes of printed lines, and until the first overflow there is a printed line
for the hash of every call. -/
structure Accounted (env : Env) (g : Globals) : Prop where
  slots : ∀ slot, g.globalBm slot ≠ 0 →
    ∃ call ∈ g.calls, call.h = g.globalBm slot ∧ prints env.globalRepeated call.miss
  calls : g.overflowCount = 0 → ∀ call ∈ g.calls,
    ∃ first ∈ g.calls, first.h = call.h ∧ prints env.globalRepeated first.miss

section

variable {env : Env} {g : Globals}

/-- The three things a flush does in default mode. -/
theorem flush_cases (default : env.globalRepeated = false) (line : List Byte) (h : BitVec 64)
    (g : Globals) :
    (∃ slot, (scheme g.globalSizeMask).find g.globalBm h = .free slot ∧
      flush env line h g = { g with
        globalBm := Function.update g.globalBm slot h, globalItems := g.globalItems + 1
        outBuf := g.outBuf ++ line ++ [newline], calls := g.calls ++ [⟨line, h, 1⟩] }) ∨
    (∃ slot, (scheme g.globalSizeMask).find g.globalBm h = .held slot ∧
      flush env line h g = { g with calls := g.calls ++ [⟨line, h, 0⟩] }) ∨
    ((scheme g.globalSizeMask).find g.globalBm h = .exhausted ∧
      flush env line h g = { g with
        overflowCount := g.overflowCount + 1, calls := g.calls ++ [⟨line, h, -1⟩] }) := by
  simp only [flush, hashInsert_eq, default]
  cases (scheme g.globalSizeMask).find g.globalBm h with
  | free slot => exact .inl ⟨slot, rfl, rfl⟩
  | held slot => exact .inr (.inl ⟨slot, rfl, rfl⟩)
  | exhausted => exact .inr (.inr ⟨rfl, rfl⟩)

theorem accounted_flush (default : env.globalRepeated = false) (line : List Byte) (h : BitVec 64)
    (accounted : Accounted env g) : Accounted env (flush env line h g) := by
  obtain ⟨slots, calls⟩ := accounted
  have before {wanted : BitVec 64} (latest : Call)
      (known : ∃ call ∈ g.calls, call.h = wanted ∧ prints env.globalRepeated call.miss) :
      ∃ call ∈ g.calls ++ [latest], call.h = wanted ∧ prints env.globalRepeated call.miss := by
    obtain ⟨call, among, facts⟩ := known
    exact ⟨call, List.mem_append_left _ among, facts⟩
  -- a new hash, a known one, and one for which there was no slot
  obtain ⟨slot, -, flushed⟩ | ⟨slot, found, flushed⟩ | ⟨-, flushed⟩ :=
    flush_cases default line h g
  · have latest : ∃ call ∈ g.calls ++ [⟨line, h, 1⟩],
        call.h = h ∧ prints env.globalRepeated call.miss :=
      ⟨⟨line, h, 1⟩, List.mem_append_right _ List.mem_cons_self, rfl, by rw [default]; rfl⟩
    rw [flushed]
    refine ⟨fun other occupied => ?_, fun quiet call among => ?_⟩
    · simp only at occupied ⊢
      by_cases here : other = slot
      · rw [here, Function.update_self]
        exact latest
      · rw [Function.update_of_ne here] at occupied ⊢
        exact before _ (slots other occupied)
    · obtain earlier | isLatest := List.mem_append.mp among
      · exact before _ (calls quiet call earlier)
      · rw [List.mem_singleton.mp isLatest]
        exact latest
  · obtain ⟨same, nonzero⟩ := slot_of_probe_held found
    have occupied : g.globalBm slot ≠ 0 := by
      rw [same]
      exact nonzero
    rw [flushed]
    refine ⟨fun other occupied => before _ (slots other occupied), fun quiet call among => ?_⟩
    obtain earlier | isLatest := List.mem_append.mp among
    · exact before _ (calls quiet call earlier)
    · rw [List.mem_singleton.mp isLatest, ← same]
      exact before _ (slots slot occupied)
  · rw [flushed]
    refine ⟨fun other occupied => before _ (slots other occupied), fun quiet => ?_⟩
    exact absurd quiet (Nat.succ_ne_zero _)

theorem accounted_commit (accounted : Accounted env g) : Accounted env (commit env g).2 := by
  obtain ⟨slots, calls⟩ := accounted
  obtain success | failure := commit_cases env g
  · rw [success]
    exact ⟨slots, calls⟩
  · rw [failure]
    exact ⟨slots, calls⟩

theorem accounted_growTable (accounted : Accounted env g) : Accounted env (growTable env g) := by
  obtain ⟨slots, calls⟩ := accounted
  rw [growTable]
  split
  next full =>
    refine ⟨fun slot occupied => ?_,
      fun quiet => calls (Nat.eq_zero_of_add_eq_zero_right quiet)⟩
    obtain empty | ⟨old, -, same⟩ :=
      rehash_slot g.globalBm g.globalSizeMask.double g.globalSizeMask.mask.toNat slot
    · exact absurd empty occupied
    · simp only at occupied ⊢
      rw [same] at occupied ⊢
      exact slots old occupied
  next => exact ⟨slots, calls⟩

end

variable {env : Env} {state : State} {unfinished : List Byte}

/-- Up to the end of the input the table and the calls account for each other. -/
theorem Rounds.accounted (default : env.globalRepeated = false) {reached : State}
    {chunks : List (List Byte)} (rounds : Rounds env state chunks reached)
    (ready : state.res = 0 → Ready state unfinished) (accounted : Accounted env state.globals) :
    Accounted env reached.globals := by
  refine rounds.invariant (fun lines g admissible _ before => ?_)
    (fun g before => accounted_growTable before) ready accounted
  exact emit_invariant (fun line g _ before => accounted_flush default line.1 line.2 before)
    (fun g before => accounted_commit before) admissible before

/-- A writer that takes all it is given keeps the loop running. -/
theorem emit_complete (complete : ∀ index count, env.write index count = count)
    (lines : List (List Byte × BitVec 64)) (g : Globals) : (emit env lines g).1 = 0 := by
  rw [emit, commit]
  split
  next nonempty =>
    have positive := List.length_pos_iff.mpr nonempty
    rw [writeOut, complete]
    simp only
    rw [if_neg (by omega)]
  next => rfl

theorem rounds_of_complete (complete : ∀ index count, env.write index count = count)
    {chunks : List (List Byte)} (ready : Ready state unfinished)
    (nonempty : ∀ chunk ∈ chunks, chunk ≠ []) {rest : List (Option (List Byte))}
    (delivers : Delivers env state (chunks.map some ++ rest)) :
    ∃ reached, Rounds env state chunks reached ∧
      Ready reached (feed bufSz newline unfinished chunks.flatten).2 := by
  induction chunks generalizing state unfinished with
  | nil => exact ⟨state, .done state, ready⟩
  | cons chunk chunks inductionHypothesis =>
    obtain ⟨fits, deliversNext⟩ := delivers ready.running
    have here := nonempty chunk List.mem_cons_self
    obtain ⟨next, runs, result, globals, readyNext⟩ := iteration_eq env ready here fits
    obtain ⟨reached, rounds, readyReached⟩ :=
      inductionHypothesis (readyNext (emit_complete complete _ _))
        (fun later among => nonempty later (List.mem_cons_of_mem _ among)) (deliversNext next runs)
    refine ⟨reached, .round ready.running here fits runs rounds, ?_⟩
    rw [List.flatten_cons, feed_append]
    exact readyReached

variable (env) in
/-- An emission takes back neither a printed line nor an overflow. -/
theorem emit_grows (lines : List (List Byte × BitVec 64)) (g : Globals) :
    printed env g <+: printed env (emit env lines g).2 ∧
      g.overflowCount ≤ (emit env lines g).2.overflowCount := by
  have flushed : printed env g <+: printed env (flushAll env lines g) ∧
      g.overflowCount ≤ (flushAll env lines g).overflowCount := by
    induction lines generalizing g with
    | nil => exact ⟨List.prefix_rfl, Nat.le_refl _⟩
    | cons line lines inductionHypothesis =>
      obtain ⟨later, counted⟩ := inductionHypothesis (flush env line.1 line.2 g)
      refine ⟨List.IsPrefix.trans ?_ later, Nat.le_trans ?_ counted⟩
      · rw [printed_flush]
        exact List.prefix_append _ _
      · simp only [flush]
        split <;> omega
  rw [emit]
  obtain success | failure := commit_cases env (flushAll env lines g)
  · rw [success]
    exact flushed
  · rw [failure]
    exact flushed

/-- If the hash tells the lines of the input apart and nothing overflowed, every line was printed. -/
theorem every_line_written (env : Env) (default : env.globalRepeated = false) (sizeMask : SizeMask)
    (chunks : List (List Byte)) (nonempty : ∀ chunk ∈ chunks, chunk ≠ [])
    (delivers : Delivers env (start env sizeMask) (chunks.map some ++ [some []]))
    (complete : ∀ index count, env.write index count = count)
    (separates : ∀ first ∈ inputRecords chunks.flatten, ∀ second ∈ inputRecords chunks.flatten,
      env.finder.lineHash first.bytes = env.finder.lineHash second.bytes →
        first.bytes = second.bytes) :
    ∃ last, mainLoop env (start env sizeMask) (chunks.map some ++ [some []]) = .exit last ∧
      Tidy env last.globals ∧
      (last.globals.overflowCount = 0 → ∀ record ∈ inputRecords chunks.flatten,
        record.terminated → record.bytes ∈ printed env last.globals) := by
  have ready := ready_start env sizeMask
  obtain ⟨reached, rounds, readyReached⟩ := rounds_of_complete complete (ready rfl) nonempty delivers
  obtain ⟨last, exits, globals, -⟩ := iteration_end env readyReached
  have ended : mainLoop env (start env sizeMask) (chunks.map some ++ [some []]) = .exit last := by
    rw [rounds.mainLoop_append, mainLoop, if_pos readyReached.running, exits]
  refine ⟨last, ended, mainLoop_tidy ready delivers (congrArg Outcome.globals? ended) rfl, ?_⟩
  intro quiet record among _
  have grows := emit_grows env [(slice reached.buf 0 bufSz,
    env.finder.lineHash (lineAt reached.buf 0 bufSz))] reached.globals
  rw [← globals] at grows
  have accounted := rounds.accounted default ready
    ⟨fun slot occupied => absurd rfl occupied, fun _ call among => absurd among List.not_mem_nil⟩
  obtain ⟨onlyRecords, allRecords⟩ := rounds.calls_start
  -- the record was flushed, and a call with its hash was printed: of the same line, as hashes
  -- separate the lines
  obtain ⟨call, called, sameLine, hash⟩ := allRecords record among
  obtain ⟨first, firstCalled, sameHash, isPrinted⟩ :=
    accounted.calls (Nat.le_zero.mp (quiet ▸ grows.2)) call called
  obtain ⟨firstRecord, firstAmong, firstLine, firstHash⟩ := onlyRecords first firstCalled
  have same : firstRecord.bytes = record.bytes := by
    refine separates _ firstAmong _ among ?_
    rw [firstLine, ← firstHash, sameHash, hash, sameLine]
  rw [← same, firstLine]
  exact grows.1.subset (List.mem_map_of_mem (List.mem_filter.mpr ⟨firstCalled, isPrinted⟩))

/-- Two different lines and a repeated one, in two reads. -/
theorem every_line_written_three :
    ∃ last, mainLoop (filled 6) (start (filled 6) ⟨3, 2, rfl⟩)
        [some [97, 10, 98, 10], some [97, 10], some []] = .exit last ∧
      Tidy (filled 6) last.globals ∧
      (last.globals.overflowCount = 0 → ∀ record ∈ inputRecords [97, 10, 98, 10, 97, 10],
        record.terminated → record.bytes ∈ printed (filled 6) last.globals) := by
  have different : (filled 6).finder.lineHash [97] ≠ (filled 6).finder.lineHash [98] := by
    decide +kernel
  have bytes : ∀ record ∈ inputRecords [97, 10, 98, 10, 97, 10],
      record.bytes = [97] ∨ record.bytes = [98] := by
    rw [inputRecords, split_eq_feed]
    decide +kernel
  refine every_line_written (filled 6) rfl ⟨3, 2, rfl⟩ [[97, 10, 98, 10], [97, 10]] (by decide)
    (delivers_of_fits (filled 6) [[97, 10, 98, 10], [97, 10]] (ready_start (filled 6) ⟨3, 2, rfl⟩)
      (by decide) [some []] (.inr rfl)) (fun _ _ => rfl) ?_
  intro first amongFirst second amongSecond same
  obtain isFirst | isFirst := bytes first amongFirst <;>
    obtain isSecond | isSecond := bytes second amongSecond
  · rw [isFirst, isSecond]
  · rw [isFirst, isSecond] at same
    exact absurd same different
  · rw [isFirst, isSecond] at same
    exact absurd same.symm different
  · rw [isFirst, isSecond]

end CloudflareBlog.Mmuniq
