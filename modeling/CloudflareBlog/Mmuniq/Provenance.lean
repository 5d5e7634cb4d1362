import CloudflareBlog.Mmuniq.Completeness

/-!
# What `mmuniq.c` writes at the end of the input

Every line that is printed while the input lasts is a line of the input.  When `read` returns 0, the
buffer goes to `process_line` with a length of `BUF_SZ`, although only its first `buf_pos` bytes are
left of the input; the hash is that of the bytes before the first newline in it, whether these are
left of the input or of an earlier line.  If the search for this hash ends at a free slot, all
`BUF_SZ` bytes are written; if it does not, nothing is (`writes_only_lines_iff`).
-/

namespace CloudflareBlog.Mmuniq

open CloudflareBlog.Lib.Buffer CloudflareBlog.Lib.Records CloudflareBlog.Lib.LinearProbing

/-- The bytes that `read` delivered until it returned 0 or failed. -/
def received : List (Option (List Byte)) → List Byte
  | some (byte :: chunk) :: rest => byte :: chunk ++ received rest
  | _ => []

/-- The lines of the input, with the unterminated one at its end. -/
def inputLines (reads : List (Option (List Byte))) : List (List Byte) :=
  let left := (split bufSz bufSz_pos newline (received reads)).2
  (inputRecords (received reads)).map Record.bytes ++ if left = [] then [] else [left]

section

variable (env : Env) (sizeMask : SizeMask) (reads : List (Option (List Byte)))

/-- The loop is in `state` when `read` returns 0. -/
def AtEnd (state : State) : Prop :=
  ∃ (chunks : List (List Byte)) (rest : _), reads = chunks.map some ++ some [] :: rest ∧
    mainLoop env (start env sizeMask) (chunks.map some) = .loop state ∧ state.res = 0

/-- All that was written is lines of the input, each with a newline, and the handling of `r == 0`
wrote at most the bytes left in the buffer and a newline. -/
structure OnlyLines (g : Globals) : Prop where
  output : ∃ records : List (List Byte),
    g.writes.flatten = records.flatMap (· ++ [newline]) ∧
      ∀ record ∈ records, record ∈ inputLines reads
  atEnd : ∀ state, AtEnd env sizeMask reads state →
    g.writes.flatten.length ≤ state.globals.writes.flatten.length + (state.bufPos + 1)

/-- At the end of the input, the search for the line that the buffer begins with does not end at a
free slot. -/
def StaleKnown : Prop :=
  ∀ state, AtEnd env sizeMask reads state → ∀ slot,
    (scheme state.globals.globalSizeMask).find state.globals.globalBm
      (env.finder.lineHash (lineAt state.buf 0 bufSz)) ≠ .free slot

end

variable {env : Env} {sizeMask : SizeMask} {reads : List (Option (List Byte))}

/-- The state of a loop that goes on. -/
def Outcome.looping : Outcome → Option State
  | .loop state => some state
  | _ => none

theorem Outcome.eq_loop_of_looping {outcome : Outcome} {state : State}
    (loops : outcome.looping = some state) : outcome = .loop state := by
  cases outcome with
  | loop other => rw [Option.some.inj loops]
  | exit other => cases loops
  | abort => cases loops

theorem AtEnd.ended {state : State} (ends : AtEnd env sizeMask reads state)
    (delivers : Delivers env (start env sizeMask) reads) {g : Globals}
    (reached : (mainLoop env (start env sizeMask) reads).globals? = some g) :
    ∃ unfinished, Ready state unfinished ∧ Tidy env state.globals ∧
      g = (emit env [(slice state.buf 0 bufSz, env.finder.lineHash (lineAt state.buf 0 bufSz))]
        state.globals).2 := by
  obtain ⟨chunks, rest, whole, loops, running⟩ := ends
  rw [whole] at delivers
  have deliversChunks := delivers.of_append
  have ready := ready_start env sizeMask
  have tidy := mainLoop_tidy ready deliversChunks (congrArg Outcome.globals? loops) rfl
  obtain ⟨taken, final, left, rounds, ⟨-, outcome | outcome⟩ | ⟨last, -, -, -, outcome⟩⟩ :=
    mainLoop_rounds ready deliversChunks
  · rw [loops] at outcome
    cases outcome
    have readyState := rounds.ready ready running
    obtain ⟨last, exits, globals, -⟩ := iteration_end env readyState
    refine ⟨_, readyState, tidy, ?_⟩
    rw [whole, mainLoop_append loops, mainLoop, if_pos running, exits] at reached
    rw [← globals]
    exact (Option.some.inj reached).symm
  · rw [loops] at outcome
    cases outcome
  · rw [loops] at outcome
    cases outcome

theorem printed_emit_one (line : List Byte) (h : BitVec 64) (g : Globals) :
    printed env (emit env [(line, h)] g).2 = printed env g ++
      if prints env.globalRepeated (hashInsert h g.globalBm g.globalSizeMask.mask).1 then [line]
      else [] := by
  rw [← printed_flush, printed, emit, calls_commit]
  rfl

theorem prints_iff_free (default : env.globalRepeated = false) (h : BitVec 64) (g : Globals) :
    prints env.globalRepeated (hashInsert h g.globalBm g.globalSizeMask.mask).1 ↔
      ∃ slot, (scheme g.globalSizeMask).find g.globalBm h = .free slot := by
  rw [default, prints_default, hashInsert_eq_one]

theorem AtEnd.writes_length {state : State} (ends : AtEnd env sizeMask reads state)
    (delivers : Delivers env (start env sizeMask) reads) {g : Globals}
    (reached : (mainLoop env (start env sizeMask) reads).globals? = some g) :
    g.writes.flatten.length = state.globals.writes.flatten.length +
      if prints env.globalRepeated (hashInsert (env.finder.lineHash (lineAt state.buf 0 bufSz))
        state.globals.globalBm state.globals.globalSizeMask.mask).1 then bufSz + 1 else 0 := by
  obtain ⟨unfinished, ready, tidy, globals⟩ := ends.ended delivers reached
  have tidyEnd := emit_tidy [(slice state.buf 0 bufSz,
    env.finder.lineHash (lineAt state.buf 0 bufSz))] ready.written tidy
  rw [← globals] at tidyEnd
  rw [tidyEnd, tidy, globals, printed_emit_one, List.flatMap_append, List.length_append]
  split
  · rw [List.flatMap_singleton, List.length_append, length_slice, List.length_singleton]
  · rfl

/-- A search that ends at a free slot has more written than is left in the buffer. -/
theorem not_onlyLines_of_free (default : env.globalRepeated = false) {state : State}
    (ends : AtEnd env sizeMask reads state) (delivers : Delivers env (start env sizeMask) reads)
    {g : Globals} (reached : (mainLoop env (start env sizeMask) reads).globals? = some g)
    {slot : Nat} (free : (scheme state.globals.globalSizeMask).find state.globals.globalBm
      (env.finder.lineHash (lineAt state.buf 0 bufSz)) = .free slot) :
    ¬OnlyLines env sizeMask reads g := by
  intro only
  have bound := only.atEnd state ends
  rw [ends.writes_length delivers reached,
    if_pos ((prints_iff_free default _ _).mpr ⟨slot, free⟩)] at bound
  obtain ⟨unfinished, ready, -, -⟩ := ends.ended delivers reached
  have position := ready.position
  have short := ready.short
  omega

theorem received_rounds {state reached : State} {chunks : List (List Byte)}
    (rounds : Rounds env state chunks reached) (rest : List (Option (List Byte))) :
    received (chunks.map some ++ rest) = chunks.flatten ++ received rest := by
  induction rounds with
  | done state => rfl
  | @round state next last chunk tail running nonempty fits runs rounds inductionHypothesis =>
    cases chunk with
    | nil => exact absurd rfl nonempty
    | cons byte chunk =>
      rw [List.map_cons, List.cons_append, received, inductionHypothesis, List.flatten_cons,
        List.append_assoc]

theorem Rounds.printed_mem {reached : State} {chunks : List (List Byte)}
    (rounds : Rounds env (start env sizeMask) chunks reached) (rest : List (Option (List Byte))) :
    ∀ line ∈ printed env reached.globals, line ∈ inputLines (chunks.map some ++ rest) := by
  intro line among
  obtain ⟨call, isCall, rfl⟩ := List.mem_map.mp among
  obtain ⟨record, isRecord, same, -⟩ := rounds.calls_start.1 call (List.mem_filter.mp isCall).1
  rw [inputLines, received_rounds rounds, ← same]
  refine List.mem_append_left _ (List.mem_map_of_mem ?_)
  rw [inputRecords, split_eq_feed] at isRecord ⊢
  rw [feed_append]
  exact List.mem_append_left _ isRecord

/-- Nothing but lines of the input is written exactly when the stale line is known at the end. -/
theorem writes_only_lines_iff (env : Env) (default : env.globalRepeated = false)
    (sizeMask : SizeMask) (reads : List (Option (List Byte))) (g : Globals)
    (delivers : Delivers env (start env sizeMask) reads)
    (reached : (mainLoop env (start env sizeMask) reads).globals? = some g) :
    OnlyLines env sizeMask reads g ↔ StaleKnown env sizeMask reads := by
  constructor
  · intro only state ends slot free
    exact not_onlyLines_of_free default ends delivers reached free only
  intro known
  have ready := ready_start env sizeMask
  refine ⟨⟨printed env g, mainLoop_tidy ready delivers reached rfl, ?_⟩, fun state ends => ?_⟩
  · obtain ⟨chunks, final, rest, rounds, ⟨whole, outcome⟩ | ⟨last, whole, running, runs, outcome⟩⟩ :=
      mainLoop_rounds ready delivers
    · -- the run ends between two rounds
      obtain rfl : final.globals = g := by
        obtain outcome | outcome := outcome <;> rw [outcome] at reached <;>
          exact Option.some.inj reached
      rw [whole]
      exact rounds.printed_mem rest
    · -- it ends with the whole buffer, which is known and so not printed
      have loops := rounds.mainLoop_append []
      rw [List.append_nil] at loops
      have ends : AtEnd env sizeMask reads final := ⟨chunks, rest, whole, loops, running⟩
      obtain ⟨unfinished, readyFinal, -, globals⟩ := ends.ended delivers reached
      have silent := mt (prints_iff_free default _ _).mp
        fun ⟨slot, free⟩ => known final ends slot free
      rw [globals, printed_emit_one, if_neg silent, List.append_nil, whole]
      exact rounds.printed_mem _
  · have silent := mt (prints_iff_free default _ _).mp
      fun ⟨slot, free⟩ => known state ends slot free
    rw [ends.writes_length delivers reached, if_neg silent]
    omega

theorem exists_globals {state : State} {unfinished : List Byte}
    (ready : state.res = 0 → Ready state unfinished) (delivers : Delivers env state reads) :
    ∃ g, (mainLoop env state reads).globals? = some g := by
  have runs := mainLoop_ne_abort ready delivers
  cases outcome : mainLoop env state reads with
  | loop last => exact ⟨last.globals, rfl⟩
  | exit last => exact ⟨last.globals, rfl⟩
  | abort => exact absurd outcome runs

/-- A line that is read again, up to the end of the input. -/
theorem writes_only_lines_iff_two :
    ∃ g, (mainLoop (filled 6) (start (filled 6) ⟨3, 2, rfl⟩)
        [some [97, 10], some [97, 10], some []]).globals? = some g ∧
      (OnlyLines (filled 6) ⟨3, 2, rfl⟩ [some [97, 10], some [97, 10], some []] g ↔
        StaleKnown (filled 6) ⟨3, 2, rfl⟩ [some [97, 10], some [97, 10], some []]) := by
  have ready := ready_start (filled 6) ⟨3, 2, rfl⟩
  have delivers := delivers_of_fits (filled 6) [[97, 10], [97, 10]] ready (by decide) [some []]
    (.inr rfl)
  obtain ⟨g, reached⟩ := exists_globals ready delivers
  exact ⟨g, reached, writes_only_lines_iff _ rfl _ _ _ delivers reached⟩

/-- The input "ab", newline, "c", read in two pieces: the buffer then begins with "cb", which is in
no line of the input, and `BUF_SZ` bytes of it are written. -/
theorem stale_line_written :
    ∃ g, (mainLoop (filled 6) (start (filled 6) ⟨3, 2, rfl⟩)
        [some [97, 98, 10], some [99], some []]).globals? = some g ∧
      ¬OnlyLines (filled 6) ⟨3, 2, rfl⟩ [some [97, 98, 10], some [99], some []] g := by
  have facts : (mainLoop (filled 6) (start (filled 6) ⟨3, 2, rfl⟩)
      [some [97, 98, 10], some [99]]).looping.map (fun state => (state.res,
        (hashInsert ((filled 6).finder.lineHash (lineAt state.buf 0 bufSz))
          state.globals.globalBm state.globals.globalSizeMask.mask).1)) = some (0, 1) := by
    decide +kernel
  obtain ⟨state, loops, checks⟩ := Option.map_eq_some_iff.mp facts
  simp only [Prod.mk.injEq] at checks
  obtain ⟨running, inserted⟩ := checks
  obtain ⟨slot, free⟩ := hashInsert_eq_one.mp inserted
  have ready := ready_start (filled 6) ⟨3, 2, rfl⟩
  have delivers := delivers_of_fits (filled 6) [[97, 98, 10], [99]] ready (by decide) [some []]
    (.inr rfl)
  obtain ⟨g, reached⟩ := exists_globals ready delivers
  have ends : AtEnd (filled 6) ⟨3, 2, rfl⟩ [some [97, 98, 10], some [99], some []] state :=
    ⟨[[97, 98, 10], [99]], [], rfl, Outcome.eq_loop_of_looping loops, running⟩
  exact ⟨g, reached, not_onlyLines_of_free rfl ends delivers reached free⟩

end CloudflareBlog.Mmuniq
