import CloudflareBlog.Mmuniq.Iteration

/-!
# Runs of `mmuniq.c`

A run of the loop in `main` is a number of rounds, each on a piece that was read, and then perhaps
the round in which `read` returned nothing (`mainLoop_rounds`); it never aborts.  The calls of
`process_flush` in it are the records of the input, in their order (`Rounds.calls`).

`mainLoop_invariant` is the induction over a run: what emitting lines and growing the table preserve
holds at its end.
-/

namespace CloudflareBlog.Mmuniq

open CloudflareBlog.Lib.Buffer CloudflareBlog.Lib.Records

variable (env : Env)

/-- `last` is the state after a round on each of the pieces. -/
inductive Rounds : State → List (List Byte) → State → Prop
  | done (state : State) : Rounds state [] state
  | round {state next last : State} {chunk : List Byte} {rest : List (List Byte)}
      (running : state.res = 0) (nonempty : chunk ≠ [])
      (fits : chunk.length ≤ bufSz - state.bufPos)
      (runs : iteration env state (some chunk) = .loop next) (rounds : Rounds next rest last) :
      Rounds state (chunk :: rest) last

variable {env}

/-- How a run ends: after its rounds, or with the round at the end of the input. -/
theorem mainLoop_rounds {state : State} {unfinished : List Byte}
    {reads : List (Option (List Byte))} (ready : state.res = 0 → Ready state unfinished)
    (delivers : Delivers env state reads) :
    ∃ chunks reached rest, Rounds env state chunks reached ∧
      ((reads = chunks.map some ++ rest ∧
          (mainLoop env state reads = .loop reached ∨ mainLoop env state reads = .exit reached)) ∨
        ∃ last, reads = chunks.map some ++ some [] :: rest ∧ reached.res = 0 ∧
          iteration env reached (some []) = .exit last ∧ mainLoop env state reads = .exit last) := by
  -- a failed write ends the loop before the next read, an empty read ends it in its own round
  induction reads generalizing state unfinished with
  | nil => exact ⟨[], state, [], .done state, .inl ⟨rfl, .inl rfl⟩⟩
  | cons read rest inductionHypothesis =>
    by_cases running : state.res = 0
    · cases read with
      | none =>
        refine ⟨[], state, none :: rest, .done state, .inl ⟨rfl, .inr ?_⟩⟩
        rw [mainLoop, if_pos running]
        rfl
      | some chunk =>
        by_cases empty : chunk = []
        · subst empty
          obtain ⟨last, runs, -⟩ := iteration_end env (ready running)
          refine ⟨[], state, rest, .done state, .inr ⟨last, rfl, running, runs, ?_⟩⟩
          rw [mainLoop, if_pos running, runs]
        · obtain ⟨next, runs, result, -, readyNext⟩ :=
            iteration_eq env (ready running) empty (delivers running).1
          obtain ⟨chunks, reached, left, rounds, ended⟩ :=
            inductionHypothesis (fun done => readyNext (result ▸ done))
              ((delivers running).2 next runs)
          refine ⟨chunk :: chunks, reached, left,
            .round running empty (delivers running).1 runs rounds, ?_⟩
          have unfolded : mainLoop env state (some chunk :: rest) = mainLoop env next rest := by
            rw [mainLoop, if_pos running, runs]
          rw [unfolded]
          obtain ⟨whole, outcome⟩ | ⟨last, whole, facts⟩ := ended
          · exact .inl ⟨by rw [whole]; rfl, outcome⟩
          · exact .inr ⟨last, by rw [whole]; rfl, facts⟩
    · refine ⟨[], state, read :: rest, .done state, .inl ⟨rfl, .inr ?_⟩⟩
      rw [mainLoop, if_neg running]

/-- The rounds are what `mainLoop` does on their pieces. -/
theorem Rounds.mainLoop_append {state reached : State} {chunks : List (List Byte)}
    (rounds : Rounds env state chunks reached) (rest : List (Option (List Byte))) :
    mainLoop env state (chunks.map some ++ rest) = mainLoop env reached rest := by
  induction rounds with
  | done state => rfl
  | round running nonempty fits runs rounds inductionHypothesis =>
    rw [List.map_cons, List.cons_append, mainLoop, if_pos running, runs]
    exact inductionHypothesis

/-! ## Parts of a run -/

theorem mainLoop_append {state next : State} {first : List (Option (List Byte))}
    (loops : mainLoop env state first = .loop next) (second : List (Option (List Byte))) :
    mainLoop env state (first ++ second) = mainLoop env next second := by
  induction first generalizing state with
  | nil => cases loops; rfl
  | cons read first inductionHypothesis =>
    rw [mainLoop] at loops
    rw [List.cons_append, mainLoop]
    by_cases running : state.res = 0
    · rw [if_pos running] at loops ⊢
      cases runs : iteration env state read with
      | loop middle =>
        rw [runs] at loops
        exact inductionHypothesis loops
      | exit middle => rw [runs] at loops; cases loops
      | abort => rw [runs] at loops; cases loops
    · rw [if_neg running] at loops
      cases loops

theorem Delivers.of_append {state : State} {first second : List (Option (List Byte))}
    (delivers : Delivers env state (first ++ second)) : Delivers env state first := by
  induction first generalizing state with
  | nil => trivial
  | cons read first inductionHypothesis =>
    cases read with
    | none => trivial
    | some chunk =>
      intro running
      obtain ⟨fits, later⟩ := delivers running
      exact ⟨fits, fun next runs => inductionHypothesis (later next runs)⟩

theorem Delivers.rest {state next : State} {first second : List (Option (List Byte))}
    (delivers : Delivers env state (first ++ second))
    (loops : mainLoop env state first = .loop next) : Delivers env next second := by
  induction first generalizing state with
  | nil => cases loops; exact delivers
  | cons read first inductionHypothesis =>
    rw [mainLoop] at loops
    by_cases running : state.res = 0
    · rw [if_pos running] at loops
      cases read with
      | none => cases loops
      | some chunk =>
        cases runs : iteration env state (some chunk) with
        | loop middle =>
          rw [runs] at loops
          exact inductionHypothesis ((delivers running).2 middle runs) loops
        | exit middle => rw [runs] at loops; cases loops
        | abort => rw [runs] at loops; cases loops
    · rw [if_neg running] at loops
      cases loops

/-! ## What the rounds did -/

theorem Rounds.ready {state reached : State} {chunks : List (List Byte)} {unfinished : List Byte}
    (rounds : Rounds env state chunks reached) (ready : state.res = 0 → Ready state unfinished)
    (running : reached.res = 0) :
    Ready reached (feed bufSz newline unfinished chunks.flatten).2 := by
  induction rounds generalizing unfinished with
  | done state => exact ready running
  | round before nonempty fits runs rounds inductionHypothesis =>
    obtain ⟨-, -, readyNext⟩ := iteration_loop env (ready before) nonempty fits runs
    rw [List.flatten_cons, feed_append]
    exact inductionHypothesis readyNext running

theorem ready_of_loop {state reached : State} {unfinished : List Byte}
    {reads : List (Option (List Byte))} (ready : state.res = 0 → Ready state unfinished)
    (delivers : Delivers env state reads) (loops : mainLoop env state reads = .loop reached)
    (running : reached.res = 0) : ∃ unfinished, Ready reached unfinished := by
  obtain ⟨chunks, last, rest, rounds, ⟨-, outcome | outcome⟩ | ⟨other, -, -, -, outcome⟩⟩ :=
    mainLoop_rounds ready delivers
  · rw [loops] at outcome
    cases outcome
    exact ⟨_, rounds.ready ready running⟩
  · rw [loops] at outcome
    cases outcome
  · rw [loops] at outcome
    cases outcome

theorem calls_flushAll (lines : List (List Byte × BitVec 64)) (g : Globals) :
    (flushAll env lines g).calls.map (fun call => (call.line, call.h)) =
      g.calls.map (fun call => (call.line, call.h)) ++ lines := by
  induction lines generalizing g with
  | nil => simp
  | cons line lines inductionHypothesis =>
    rw [flushAll_cons, inductionHypothesis]
    simp [flush]

@[simp] theorem calls_commit (g : Globals) : (commit env g).2.calls = g.calls := by
  obtain success | failure := commit_cases env g
  · rw [success]
  · rw [failure]

@[simp] theorem calls_growTable (g : Globals) : (growTable env g).calls = g.calls := by
  rw [growTable]
  split <;> rfl

theorem Rounds.calls {state reached : State} {chunks : List (List Byte)} {unfinished : List Byte}
    (rounds : Rounds env state chunks reached) (ready : state.res = 0 → Ready state unfinished) :
    reached.globals.calls.map (fun call => (call.line, call.h)) =
      state.globals.calls.map (fun call => (call.line, call.h)) ++
        hashed env ((feed bufSz newline unfinished chunks.flatten).1.map Record.bytes) := by
  induction rounds generalizing unfinished with
  | done state => simp [hashed]
  | round before nonempty fits runs rounds inductionHypothesis =>
    obtain ⟨-, globals, readyNext⟩ := iteration_loop env (ready before) nonempty fits runs
    rw [inductionHypothesis readyNext, globals, calls_growTable, emit, calls_commit, calls_flushAll,
      List.flatten_cons, feed_append]
    simp [hashed]

theorem bufSz_pos : 0 < bufSz := by decide

/-- The lines of the input: what the stream is cut into, without what is left open at its end. -/
def inputRecords (stream : List Byte) : List (Record Byte) := (split bufSz bufSz_pos newline stream).1

theorem ready_start (env : Env) (sizeMask : SizeMask) :
    (start env sizeMask).res = 0 → Ready (start env sizeMask) [] := fun _ =>
  ⟨rfl, rfl, rfl, rfl, rfl, List.not_mem_nil, Nat.zero_lt_succ _⟩

/-- The rounds of `main` call `process_flush` with the lines of the input and their hashes. -/
theorem Rounds.calls_start {sizeMask : SizeMask} {reached : State} {chunks : List (List Byte)}
    (rounds : Rounds env (start env sizeMask) chunks reached) :
    (∀ call ∈ reached.globals.calls, ∃ record ∈ inputRecords chunks.flatten,
      record.bytes = call.line ∧ call.h = env.finder.lineHash call.line) ∧
    (∀ record ∈ inputRecords chunks.flatten, ∃ call ∈ reached.globals.calls,
      call.line = record.bytes ∧ call.h = env.finder.lineHash call.line) := by
  have calls := rounds.calls (ready_start env sizeMask)
  rw [show (start env sizeMask).globals.calls = [] from rfl, List.map_nil, List.nil_append,
    ← split_eq_feed bufSz bufSz_pos, ← inputRecords, hashed, List.map_map] at calls
  constructor
  · intro call among
    have paired := List.mem_map_of_mem (f := fun call : Call => (call.line, call.h)) among
    rw [calls] at paired
    obtain ⟨record, isRecord, same⟩ := List.mem_map.mp paired
    simp only [Function.comp_apply, Prod.mk.injEq] at same
    exact ⟨record, isRecord, same.1, by rw [← same.1, same.2]⟩
  · intro record isRecord
    have paired := List.mem_map_of_mem
      (f := (fun line => (line, env.finder.lineHash line)) ∘ Record.bytes) isRecord
    rw [← calls] at paired
    obtain ⟨call, among, same⟩ := List.mem_map.mp paired
    simp only [Function.comp_apply, Prod.mk.injEq] at same
    exact ⟨call, among, same.1, by rw [same.2, same.1]⟩

/-! ## Invariants -/

/-- The hashes under which lines are flushed: that of the line, except for the whole buffer at the
end of the input. -/
def Admissible (env : Env) (line : List Byte × BitVec 64) : Prop :=
  line.2 = env.finder.lineHash line.1 ∨ line.1.length = bufSz

theorem admissible_hashed (ls : List (List Byte)) : ∀ line ∈ hashed env ls, Admissible env line := by
  intro line among
  obtain ⟨bytes, -, rfl⟩ := List.mem_map.mp among
  exact .inl rfl

/-- What single flushes and writes preserve, an emission preserves. -/
theorem emit_invariant {P : Globals → Prop}
    (flushes : ∀ line g, Admissible env line → P g → P (flush env line.1 line.2 g))
    (commits : ∀ g, P g → P (commit env g).2) {lines : List (List Byte × BitVec 64)} {g : Globals}
    (admissible : ∀ line ∈ lines, Admissible env line) (holds : P g) :
    P (emit env lines g).2 := by
  apply commits
  induction lines generalizing g with
  | nil => exact holds
  | cons line lines inductionHypothesis =>
    exact inductionHypothesis (fun later among => admissible later (List.mem_cons_of_mem _ among))
      (flushes line g (admissible line List.mem_cons_self) holds)

theorem Rounds.invariant {P : Globals → Prop}
    (emits : ∀ lines g, (∀ line ∈ lines, Admissible env line) → g.outBuf = [] → P g →
      P (emit env lines g).2)
    (grows : ∀ g, P g → P (growTable env g))
    {state reached : State} {chunks : List (List Byte)} {unfinished : List Byte}
    (rounds : Rounds env state chunks reached) (ready : state.res = 0 → Ready state unfinished)
    (holds : P state.globals) : P reached.globals := by
  induction rounds generalizing unfinished with
  | done state => exact holds
  | round before nonempty fits runs rounds inductionHypothesis =>
    obtain ⟨-, globals, readyNext⟩ := iteration_loop env (ready before) nonempty fits runs
    refine inductionHypothesis readyNext ?_
    rw [globals]
    exact grows _ (emits _ _ (admissible_hashed _) (ready before).written holds)

/-- The globals where a run ends: those behind its rounds, or behind the whole buffer that is emitted at
the end of the input. -/
theorem mainLoop_globals {state : State} {reads : List (Option (List Byte))}
    {unfinished : List Byte} {g : Globals} (ready : state.res = 0 → Ready state unfinished)
    (delivers : Delivers env state reads)
    (ended : (mainLoop env state reads).globals? = some g) :
    ∃ chunks reached, Rounds env state chunks reached ∧
      (g = reached.globals ∨ (∃ left, Ready reached left) ∧
        g = (emit env [(slice reached.buf 0 bufSz,
          env.finder.lineHash (lineAt reached.buf 0 bufSz))] reached.globals).2) := by
  obtain ⟨chunks, reached, rest, rounds, ⟨-, outcome⟩ | ⟨last, -, running, runs, outcome⟩⟩ :=
    mainLoop_rounds ready delivers
  · refine ⟨chunks, reached, rounds, .inl ?_⟩
    obtain outcome | outcome := outcome <;> rw [outcome] at ended <;>
      exact (Option.some.inj ended).symm
  · have readyReached := rounds.ready ready running
    obtain ⟨globals, -⟩ := iteration_exit env readyReached runs
    rw [outcome] at ended
    exact ⟨chunks, reached, rounds, .inr ⟨⟨_, readyReached⟩, (Option.some.inj ended) ▸ globals⟩⟩

/-- What emissions and resizes preserve holds wherever a run of `main` gets to. -/
theorem mainLoop_invariant {P : Globals → Prop}
    (emits : ∀ lines g, (∀ line ∈ lines, Admissible env line) → g.outBuf = [] → P g →
      P (emit env lines g).2)
    (grows : ∀ g, P g → P (growTable env g))
    {state : State} {reads : List (Option (List Byte))} {unfinished : List Byte} {g : Globals}
    (ready : state.res = 0 → Ready state unfinished) (delivers : Delivers env state reads)
    (ended : (mainLoop env state reads).globals? = some g)
    (holds : P state.globals) : P g := by
  obtain ⟨chunks, reached, rounds, rfl | ⟨⟨left, readyReached⟩, rfl⟩⟩ :=
    mainLoop_globals ready delivers ended
  · exact rounds.invariant emits grows ready holds
  · refine emits _ _ (fun line among => .inr ?_) readyReached.written
      (rounds.invariant emits grows ready holds)
    rw [List.mem_singleton.mp among, length_slice]

/-! ## Output -/

/-- What was passed to `write` is the printed lines, each with a newline. -/
def Tidy (env : Env) (g : Globals) : Prop :=
  g.writes.flatten = (printed env g).flatMap (· ++ [newline])

theorem prints_default {miss : Int} : prints false miss = true ↔ miss = 1 := by
  simp [prints]

theorem printed_flush (line : List Byte) (h : BitVec 64) (g : Globals) :
    printed env (flush env line h g) = printed env g ++
      if prints env.globalRepeated (hashInsert h g.globalBm g.globalSizeMask.mask).1 then [line]
      else [] := by
  simp only [printed, flush, List.filter_append, List.map_append, List.filter_singleton]
  cases prints env.globalRepeated (hashInsert h g.globalBm g.globalSizeMask.mask).1 <;> rfl

theorem outBuf_flushAll (env : Env) (lines : List (List Byte × BitVec 64)) {g : Globals}
    (before : g.writes.flatten ++ g.outBuf = (printed env g).flatMap (· ++ [newline])) :
    (flushAll env lines g).writes.flatten ++ (flushAll env lines g).outBuf =
      (printed env (flushAll env lines g)).flatMap (· ++ [newline]) := by
  induction lines generalizing g with
  | nil => exact before
  | cons line lines inductionHypothesis =>
    refine inductionHypothesis ?_
    rw [printed_flush, List.flatMap_append, ← before]
    simp only [flush]
    split <;> simp

theorem emit_tidy (lines : List (List Byte × BitVec 64)) {g : Globals} (empty : g.outBuf = [])
    (tidy : Tidy env g) : Tidy env (emit env lines g).2 := by
  have flushed := outBuf_flushAll env lines (g := g)
    (by rw [empty, List.append_nil]; exact tidy)
  rw [← flatten_payloads (flushAll env lines g), ← List.flatten_append] at flushed
  obtain success | failure := commit_cases env (flushAll env lines g)
  · rw [emit, success]
    exact flushed
  · rw [emit, failure]
    exact flushed

theorem growTable_tidy {g : Globals} (tidy : Tidy env g) : Tidy env (growTable env g) := by
  rw [growTable]
  split <;> exact tidy

theorem mainLoop_tidy {state : State} {reads : List (Option (List Byte))} {unfinished : List Byte}
    {g : Globals} (ready : state.res = 0 → Ready state unfinished)
    (delivers : Delivers env state reads) (ended : (mainLoop env state reads).globals? = some g)
    (tidy : Tidy env state.globals) : Tidy env g :=
  mainLoop_invariant (fun lines _ _ empty tidy => emit_tidy lines empty tidy)
    (fun _ tidy => growTable_tidy tidy) ready delivers ended tidy

/-- The `abort()` in `process_flush` is unreachable. -/
theorem mainLoop_ne_abort {state : State} {reads : List (Option (List Byte))}
    {unfinished : List Byte} (ready : state.res = 0 → Ready state unfinished)
    (delivers : Delivers env state reads) : mainLoop env state reads ≠ .abort := by
  obtain ⟨chunks, reached, rest, -, ⟨-, outcome | outcome⟩ | ⟨last, -, -, -, outcome⟩⟩ :=
    mainLoop_rounds ready delivers <;> rw [outcome] <;> simp

/-- A stream that fits into the buffer can be delivered in any pieces. -/
theorem delivers_of_fits (env : Env) {state : State} {unfinished : List Byte} (chunks : List (List Byte))
    (ready : state.res = 0 → Ready state unfinished)
    (fits : unfinished.length + chunks.flatten.length ≤ bufSz)
    (rest : List (Option (List Byte))) (ends : rest = [] ∨ rest = [some []]) :
    Delivers env state (chunks.map some ++ rest) := by
  induction chunks generalizing state unfinished with
  | nil =>
    obtain rfl | rfl := ends
    · trivial
    · exact fun running => ⟨Nat.zero_le _, fun _ _ => trivial⟩
  | cons chunk chunks inductionHypothesis =>
    intro running
    rw [List.flatten_cons, List.length_append] at fits
    have position := (ready running).position
    have room : chunk.length ≤ bufSz - state.bufPos := by omega
    refine ⟨room, fun next runs => ?_⟩
    by_cases empty : chunk = []
    · -- an empty piece ends the input, so there is no next round
      subst empty
      obtain ⟨last, exits, -⟩ := iteration_end env (ready running)
      rw [exits] at runs
      cases runs
    · obtain ⟨-, -, readyNext⟩ := iteration_loop env (ready running) empty room runs
      have left := feed_length_le bufSz newline unfinished chunk
      exact inductionHypothesis readyNext (by omega)

end CloudflareBlog.Mmuniq
