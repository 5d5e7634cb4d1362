import CloudflareBlog.Lib.Sink
import CloudflareBlog.Mmuniq.Provenance

/-!
# The output of `mmuniq.c`

`process_line` takes every `write` that does not fail for a write of the whole of `out_buf`: it drops
the result and sets `out_buf_pos` to 0.  A pipe may accept less, and then the rest of `out_buf` is
lost without an error (`write_complete_iff`).
-/

namespace CloudflareBlog.Mmuniq

open CloudflareBlog.Lib.Buffer CloudflareBlog.Lib.Sink

section

variable (env : Env)

/-- What `process_flush` appended to `out_buf`. -/
def appended (g : Globals) : List Byte := (printed env g).flatMap (· ++ [newline])

/-- What the calls of `write` accepted. -/
def accepted (g : Globals) : List Byte :=
  taken (fun index count => (env.write index count).toNat) 0 g.writes

/-- Either `process_line` reported a failure, or the output is complete. -/
def WriteComplete (state : State) : Prop :=
  state.res ≠ 0 ∨ accepted env state.globals = appended env state.globals

/-- One of the writes failed. -/
def SomeFailed (writes : List (List Byte)) : Prop :=
  ∃ index payload, writes[index]? = some payload ∧ env.write index payload.length ≤ 0

/-- None of the writes accepted less than it was given. -/
def NoneShort (writes : List (List Byte)) : Prop :=
  ∀ index payload, writes[index]? = some payload →
    payload.length ≤ (env.write index payload.length).toNat

end

variable {env : Env}

/-! ## Failures -/

theorem not_someFailed_nil : ¬ SomeFailed env [] := by
  rintro ⟨index, payload, there, -⟩
  simp at there

theorem someFailed_append {writes : List (List Byte)} (none : ¬ SomeFailed env writes)
    (payload : List Byte) :
    SomeFailed env (writes ++ [payload]) ↔ env.write writes.length payload.length ≤ 0 := by
  constructor
  · rintro ⟨index, other, there, failed⟩
    rw [List.getElem?_append] at there
    split at there
    next before => exact absurd ⟨index, other, there, failed⟩ none
    next behind =>
      obtain ⟨position, rfl⟩ : index = writes.length ∧ payload = other := by
        cases offset : index - writes.length with
        | zero =>
          rw [offset] at there
          exact ⟨by omega, by simpa using there⟩
        | succ offset' =>
          rw [offset] at there
          simp at there
      rwa [position] at failed
  · intro failed
    exact ⟨writes.length, payload, by simp, failed⟩

@[simp] theorem writes_flushAll (lines : List (List Byte × BitVec 64)) (g : Globals) :
    (flushAll env lines g).writes = g.writes := by
  induction lines generalizing g with
  | nil => rfl
  | cons line lines inductionHypothesis => exact inductionHypothesis _

@[simp] theorem writes_growTable (g : Globals) : (growTable env g).writes = g.writes := by
  rw [growTable]
  split <;> rfl

/-- The result of an emission reports the write it made. -/
theorem emit_failed_iff (lines : List (List Byte × BitVec 64)) {g : Globals}
    (none : ¬ SomeFailed env g.writes) :
    (emit env lines g).1 ≠ 0 ↔ SomeFailed env (emit env lines g).2.writes := by
  rw [emit, commit]
  by_cases empty : (flushAll env lines g).outBuf = []
  · -- nothing was appended, so nothing is written
    rw [if_neg (not_not_intro empty), writes_flushAll]
    exact iff_of_false (not_not_intro rfl) none
  · rw [if_pos empty, writeOut]
    simp only [writes_flushAll]
    split
    next failed => exact iff_of_true (by simp) ((someFailed_append none _).mpr failed)
    next success =>
      exact iff_of_false (not_not_intro rfl) fun some => success ((someFailed_append none _).mp some)

theorem Rounds.failed_iff {state reached : State} {chunks : List (List Byte)}
    {unfinished : List Byte} (rounds : Rounds env state chunks reached)
    (ready : state.res = 0 → Ready state unfinished)
    (before : state.res ≠ 0 ↔ SomeFailed env state.globals.writes) :
    reached.res ≠ 0 ↔ SomeFailed env reached.globals.writes := by
  induction rounds generalizing unfinished with
  | done state => exact before
  | round running nonempty fits runs rounds inductionHypothesis =>
    obtain ⟨result, globals, readyNext⟩ := iteration_loop env (ready running) nonempty fits runs
    refine inductionHypothesis readyNext ?_
    rw [result, globals, writes_growTable]
    exact emit_failed_iff _ fun failed => before.mpr failed running

theorem mainLoop_failed_iff {sizeMask : SizeMask} {reads : List (Option (List Byte))} {state : State}
    (delivers : Delivers env (start env sizeMask) reads)
    (ended : mainLoop env (start env sizeMask) reads = .loop state ∨
      mainLoop env (start env sizeMask) reads = .exit state) :
    state.res ≠ 0 ↔ SomeFailed env state.globals.writes := by
  have ready := ready_start env sizeMask
  have before : (start env sizeMask).res ≠ 0 ↔
      SomeFailed env (start env sizeMask).globals.writes :=
    iff_of_false (not_not_intro rfl) not_someFailed_nil
  obtain ⟨chunks, reached, rest, rounds, ⟨-, outcome⟩ | ⟨last, -, running, runs, outcome⟩⟩ :=
    mainLoop_rounds ready delivers
  · obtain rfl : state = reached := by
      obtain ended | ended := ended <;> obtain outcome | outcome := outcome <;>
        rw [outcome] at ended <;> cases ended <;> rfl
    exact rounds.failed_iff ready before
  · obtain rfl : state = last := by
      obtain ended | ended := ended <;> rw [outcome] at ended <;> cases ended
      rfl
    obtain ⟨globals, result⟩ := iteration_exit env (rounds.ready ready running) runs
    rw [result, globals]
    exact emit_failed_iff _ fun failed => (rounds.failed_iff ready before).mpr failed running

/-! ## The output -/

/-- For every input, every cutting of it into reads and every result of the writes: the output is
complete, unless a failure is reported, if and only if a write failed or none was short. -/
theorem write_complete_iff (env : Env) (sizeMask : SizeMask) {reads : List (Option (List Byte))}
    {state : State} (delivers : Delivers env (start env sizeMask) reads)
    (ended : mainLoop env (start env sizeMask) reads = .loop state ∨
      mainLoop env (start env sizeMask) reads = .exit state) :
    WriteComplete env state ↔
      SomeFailed env state.globals.writes ∨ NoneShort env state.globals.writes := by
  have globals : (mainLoop env (start env sizeMask) reads).globals? = some state.globals := by
    obtain ended | ended := ended <;> rw [ended] <;> rfl
  have tidy : Tidy env state.globals :=
    mainLoop_tidy (ready_start env sizeMask) delivers globals rfl
  rw [WriteComplete, mainLoop_failed_iff delivers ended, accepted, appended, ← tidy,
    taken_eq_flatten_iff, TakesWhole, NoneShort]

/-- The line `a`, on an output that takes all it is given. -/
theorem write_complete_iff_a :
    ∃ state, mainLoop (filled 6) (start (filled 6) ⟨3, 2, rfl⟩) [some [97, 10]] = .loop state ∧
      WriteComplete (filled 6) state := by
  have loops : (mainLoop (filled 6) (start (filled 6) ⟨3, 2, rfl⟩)
      [some [97, 10]]).looping.isSome := by
    decide +kernel
  obtain ⟨state, loops⟩ := Option.isSome_iff_exists.mp loops
  have ended := Outcome.eq_loop_of_looping loops
  have delivers : Delivers (filled 6) (start (filled 6) ⟨3, 2, rfl⟩) [some [97, 10]] :=
    fun _ => ⟨by decide, fun _ _ => trivial⟩
  refine ⟨state, ended, (write_complete_iff _ _ delivers (.inl ended)).mpr (.inr ?_)⟩
  intro index payload _
  simp [filled]

/-- A build without SSE in which all lines have one hash, on a pipe that accepts a byte at a time. -/
def oneByOne : Env where
  finder := noSse fun _ => 5
  globalRepeated := false
  fillThreshold sizeMask := sizeMask.mask.toNat
  write _ _ := 1

/-- The line `a`, of which the newline is not accepted. -/
theorem write_incomplete :
    ∃ state, Delivers oneByOne (start oneByOne ⟨3, 2, rfl⟩) [some [97, 10]] ∧
      mainLoop oneByOne (start oneByOne ⟨3, 2, rfl⟩) [some [97, 10]] = .loop state ∧
      state.res = 0 ∧ accepted oneByOne state.globals = [97] ∧
      appended oneByOne state.globals = [97, 10] := by
  have facts : (mainLoop oneByOne (start oneByOne ⟨3, 2, rfl⟩) [some [97, 10]]).looping.map
      (fun state => (state.res, accepted oneByOne state.globals, appended oneByOne state.globals)) =
        some (0, [97], [97, 10]) := by
    decide +kernel
  obtain ⟨state, loops, checks⟩ := Option.map_eq_some_iff.mp facts
  simp only [Prod.mk.injEq] at checks
  exact ⟨state, fun _ => ⟨by decide, fun _ _ => trivial⟩, Outcome.eq_loop_of_looping loops, checks⟩

end CloudflareBlog.Mmuniq
