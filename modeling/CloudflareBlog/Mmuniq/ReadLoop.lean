import CloudflareBlog.Lib.Records
import CloudflareBlog.Lib.Buffer

/-!
# The read loop of `mmuniq-hash.c` and `mmuniq-bloom.c`

Both programs read standard input into a buffer of `BUF_SZ` bytes, pass every line of it to
`process_line`, move what follows the last newline to the front of the buffer and read on behind
it.  A buffer that is full without a newline is passed on whole.  The two loops are the same text,
so they are one definition here; `process_line`, in which the programs differ, is its parameter.

Whatever the sizes of the pieces in which `read` delivers the stream, the lines passed on are those
of `Records.split` (`readLoop_eq_split`): the buffer between two reads holds exactly the unfinished
record of `Records.feed` (`Tracks`).  The loop is left without a look at that record, so what follows
the last newline is lost unless it was cut off in full buffers (`whole_input_iff`).
-/

namespace CloudflareBlog.Mmuniq.ReadLoop

open CloudflareBlog.Lib CloudflareBlog.Lib.Records CloudflareBlog.Lib.Buffer

variable {σ : Type*}

/-- The variables of the loop that live from one `read` to the next; `sink` is what `process_line`
changes. -/
structure LoopState (σ : Type*) where
  buf : Nat → Byte
  bufPos : Nat
  sink : σ

/-- The inner `while (1)`: `memchr` for a newline in `buf[buf_pos .. buf_sz)`, `process_line` on the
bytes before it.  Each round consumes a byte, so `buf_sz` rounds are enough. -/
def takeLines (processLine : σ → List Byte → Nat → σ) (buf : Nat → Byte) (bufSz : Nat) :
    Nat → Nat → σ → Nat × σ
  | 0, bufPos, sink => (bufPos, sink)
  | rounds + 1, bufPos, sink =>
    match memchr buf newline bufPos (bufSz - bufPos) with
    | none => (bufPos, sink)
    | some nlIdx =>
      let sz := nlIdx - bufPos
      takeLines processLine buf bufSz rounds (nlIdx + 1) (processLine sink (slice buf bufPos sz) sz)

/-- The body of the outer loop after a `read` that returned the bytes `chunk`. -/
def iteration (bufSize : Nat) (processLine : σ → List Byte → Nat → σ) (state : LoopState σ)
    (chunk : List Byte) : LoopState σ :=
  let buf := store state.buf state.bufPos chunk
  let bufSz := state.bufPos + chunk.length
  let taken := takeLines processLine buf bufSz bufSz 0 state.sink
  let buf := move buf taken.1 (bufSz - taken.1)
  let bufPos := bufSz - taken.1
  if bufPos = bufSize then
    { buf, bufPos := 0, sink := processLine taken.2 (slice buf 0 bufSize) bufSize }
  else { buf, bufPos, sink := taken.2 }

/-- The outer loop over the successive results of `read`.  The list ends, or an empty piece comes,
where `read` returns `r <= 0`. -/
def readLoop (bufSize : Nat) (processLine : σ → List Byte → Nat → σ) :
    LoopState σ → List (List Byte) → LoopState σ
  | state, [] => state
  | state, chunk :: rest =>
    if chunk = [] then state
    else readLoop bufSize processLine (iteration bufSize processLine state chunk) rest

/-- The byte count the loop passes to `read`. -/
def request (bufSize : Nat) (state : LoopState σ) : Nat := bufSize - state.bufPos

/-- Every `read` returns between one byte and the number of bytes asked for. -/
def Delivers (bufSize : Nat) (processLine : σ → List Byte → Nat → σ) :
    LoopState σ → List (List Byte) → Prop
  | _, [] => True
  | state, chunk :: rest =>
    1 ≤ chunk.length ∧ chunk.length ≤ request bufSize state ∧
      Delivers bufSize processLine (iteration bufSize processLine state chunk) rest

/-! ## One iteration -/

/-- Hand lines over one after another. -/
def handOver (processLine : σ → List Byte → Nat → σ) (sink : σ) (calls : List (List Byte)) : σ :=
  calls.foldl (fun sink line => processLine sink line line.length) sink

theorem takeLines_eq_lines (processLine : σ → List Byte → Nat → σ) (buf : Nat → Byte) (bufSz : Nat)
    (rounds bufPos : Nat) (sink : σ) (enough : bufSz ≤ bufPos + rounds) (inside : bufPos ≤ bufSz) :
    ∃ stop ≤ bufSz,
      takeLines processLine buf bufSz rounds bufPos sink =
        (stop, handOver processLine sink (lines newline (slice buf bufPos (bufSz - bufPos))).1) ∧
      (lines newline (slice buf bufPos (bufSz - bufPos))).2 = slice buf stop (bufSz - stop) := by
  induction rounds generalizing bufPos sink with
  | zero =>
    obtain rfl : bufPos = bufSz := by omega
    exact ⟨bufPos, Nat.le_refl _, by simp [takeLines, lines, handOver], by simp [lines]⟩
  | succ rounds inductionHypothesis =>
    obtain ⟨missing, absent⟩ | ⟨index, bound, found, there, absent⟩ :=
      memchr_cases buf newline bufPos (bufSz - bufPos)
    · -- no newline is left
      exact ⟨bufPos, inside, by simp [takeLines, missing, lines_absent absent, handOver],
        by rw [lines_absent absent]⟩
    · have cut : slice buf bufPos (bufSz - bufPos) = slice buf bufPos index ++
          newline :: slice buf (bufPos + index + 1) (bufSz - (bufPos + index + 1)) := by
        rw [show bufSz - bufPos = index + (bufSz - (bufPos + index + 1) + 1) by omega, slice_add,
          slice_succ, there]
      obtain ⟨stop, stopBound, taken, left⟩ :=
        inductionHypothesis (bufPos + index + 1)
          (processLine sink (slice buf bufPos index) index) (by omega) (by omega)
      refine ⟨stop, stopBound, ?_, ?_⟩
      · rw [takeLines, found]
        simp only [Nat.add_sub_cancel_left]
        rw [taken, cut, lines_delimiter absent]
        simp [handOver]
      · rw [cut, lines_delimiter absent]
        exact left

/-- The buffer holds the unfinished record, which has no newline and leaves room for a byte. -/
structure Tracks (bufSize : Nat) (state : LoopState σ) (unfinished : List Byte) : Prop where
  position : state.bufPos = unfinished.length
  content : slice state.buf 0 state.bufPos = unfinished
  absent : newline ∉ unfinished
  short : unfinished.length < bufSize

/-- One iteration feeds the piece that was read: it passes on the records that end in it and holds
the record that does not. -/
theorem iteration_feed {bufSize : Nat} (processLine : σ → List Byte → Nat → σ) {state : LoopState σ}
    {unfinished chunk : List Byte} (tracks : Tracks bufSize state unfinished)
    (fits : chunk.length ≤ request bufSize state) :
    Tracks bufSize (iteration bufSize processLine state chunk)
        (feed bufSize newline unfinished chunk).2 ∧
      (iteration bufSize processLine state chunk).sink =
        handOver processLine state.sink
          ((feed bufSize newline unfinished chunk).1.map Record.bytes) := by
  obtain ⟨position, content, absent, short⟩ := tracks
  have room : unfinished.length + chunk.length ≤ bufSize := by
    rw [request, position] at fits
    omega
  have whole : slice (store state.buf state.bufPos chunk) 0 (state.bufPos + chunk.length) =
      unfinished ++ chunk := by
    rw [slice_add, slice_store_before _ _ _ (by omega), content, Nat.zero_add, slice_store]
  obtain ⟨stop, stopBound, taken, left⟩ :=
    takeLines_eq_lines processLine (store state.buf state.bufPos chunk)
      (state.bufPos + chunk.length) (state.bufPos + chunk.length) 0 state.sink (by omega) (by omega)
  rw [Nat.sub_zero, whole] at taken left
  have tailAbsent := lines_tail_absent newline (unfinished ++ chunk)
  have tailLength : (lines newline (unfinished ++ chunk)).2.length =
      state.bufPos + chunk.length - stop := by rw [left, length_slice]
  rw [feed_eq_lines absent short room]
  simp only [iteration, taken]
  -- a buffer that is full without a newline is handed over as one record
  by_cases full : state.bufPos + chunk.length - stop = bufSize
  · rw [if_pos full, tailLength, if_pos full]
    refine ⟨⟨rfl, rfl, by simp, by simp only [List.length_nil]; omega⟩, ?_⟩
    rw [← full, slice_move, left]
    simp [handOver, Function.comp_def]
  · rw [if_neg full, tailLength, if_neg full]
    refine ⟨⟨tailLength.symm, by rw [slice_move, left], tailAbsent, ?_⟩, ?_⟩
    · rw [tailLength]
      omega
    · simp [handOver, Function.comp_def, full]

/-! ## Whole runs -/

theorem readLoop_feed {bufSize : Nat} {processLine : σ → List Byte → Nat → σ} {state : LoopState σ}
    {unfinished : List Byte} {reads : List (List Byte)} (tracks : Tracks bufSize state unfinished)
    (delivers : Delivers bufSize processLine state reads) :
    Tracks bufSize (readLoop bufSize processLine state reads)
        (feed bufSize newline unfinished reads.flatten).2 ∧
      (readLoop bufSize processLine state reads).sink =
        handOver processLine state.sink
          ((feed bufSize newline unfinished reads.flatten).1.map Record.bytes) := by
  induction reads generalizing state unfinished with
  | nil => exact ⟨tracks, rfl⟩
  | cons chunk rest inductionHypothesis =>
    obtain ⟨nonempty, fits, delivers⟩ := delivers
    obtain ⟨tracksNext, sinkNext⟩ := iteration_feed processLine tracks fits
    obtain ⟨tracksEnd, sinkEnd⟩ := inductionHypothesis tracksNext delivers
    rw [readLoop, if_neg (List.ne_nil_of_length_pos nonempty), List.flatten_cons, feed_append]
    refine ⟨tracksEnd, ?_⟩
    rw [sinkEnd, sinkNext]
    simp [handOver]

theorem Delivers.take {bufSize : Nat} {processLine : σ → List Byte → Nat → σ} {state : LoopState σ}
    {reads : List (List Byte)} (delivers : Delivers bufSize processLine state reads) (count : Nat) :
    Delivers bufSize processLine state (reads.take count) := by
  induction reads generalizing state count with
  | nil => simpa using delivers
  | cons chunk rest inductionHypothesis =>
    cases count with
    | zero => trivial
    | succ count => exact ⟨delivers.1, delivers.2.1, inductionHypothesis delivers.2.2 count⟩

/-- The buffer at the start of `main`: nothing read, arbitrary contents. -/
def start (buf : Nat → Byte) (sink : σ) : LoopState σ := ⟨buf, 0, sink⟩

theorem tracks_start {bufSize : Nat} (positive : 0 < bufSize) (buf : Nat → Byte) (sink : σ) :
    Tracks bufSize (start buf sink) [] :=
  ⟨rfl, rfl, by simp, positive⟩

/-- However `read` cuts the stream, the lines handed over are those of `split`. -/
theorem readLoop_eq_split {bufSize : Nat} (positive : 0 < bufSize)
    {processLine : σ → List Byte → Nat → σ} {buf : Nat → Byte} {sink : σ} {reads : List (List Byte)}
    (delivers : Delivers bufSize processLine (start buf sink) reads) :
    (readLoop bufSize processLine (start buf sink) reads).sink =
      handOver processLine sink
        ((split bufSize positive newline reads.flatten).1.map Record.bytes) := by
  rw [split_eq_feed]
  exact (readLoop_feed (tracks_start positive buf sink) delivers).2

theorem request_pos {bufSize : Nat} (positive : 0 < bufSize)
    {processLine : σ → List Byte → Nat → σ} {buf : Nat → Byte} {sink : σ} {reads : List (List Byte)}
    (delivers : Delivers bufSize processLine (start buf sink) reads) (count : Nat) :
    1 ≤ request bufSize (readLoop bufSize processLine (start buf sink) (reads.take count)) := by
  have tracks := (readLoop_feed (tracks_start positive buf sink) (delivers.take count)).1
  have := tracks.short
  rw [request, tracks.position]
  omega

/-! ## Calls

A call of `process_line` is seen through its arguments: the bytes at `s` and the length `l`. -/

def logCall (log : List (List Byte × Nat)) (s : List Byte) (l : Nat) : List (List Byte × Nat) :=
  log ++ [(s, l)]

/-- The arguments that the records of a stream make. -/
def recordCalls (records : List (Record Byte)) : List (List Byte × Nat) :=
  records.map fun record => (record.bytes, record.bytes.length)

theorem handOver_logCall (log : List (List Byte × Nat)) (records : List (Record Byte)) :
    handOver logCall log (records.map Record.bytes) = log ++ recordCalls records := by
  induction records generalizing log with
  | nil => simp [handOver, recordCalls]
  | cons record records inductionHypothesis =>
    simp only [handOver, List.map_cons, List.foldl_cons] at inductionHypothesis ⊢
    rw [inductionHypothesis]
    simp [logCall, recordCalls]

/-- The lines of the calls, with a newline behind each that a newline ended.  A call for a buffer
without a newline passes `BUF_SZ` bytes, and a call for a line before a newline fewer. -/
def rejoin (bufSize : Nat) (calls : List (List Byte × Nat)) : List Byte :=
  calls.flatMap fun call => if call.2 < bufSize then call.1 ++ [newline] else call.1

theorem rejoin_recordCalls {bufSize : Nat} {records : List (Record Byte)}
    (marked : ∀ record ∈ records, record.terminated = decide (record.bytes.length < bufSize)) :
    rejoin bufSize (recordCalls records) = join newline records := by
  rw [rejoin, recordCalls, List.flatMap_map, join]
  apply List.flatMap_congr
  intro record among
  rw [marked record among]
  simp only [decide_eq_true_eq]

/-- The calls give the stream back exactly if nothing is left open at its end. -/
theorem rejoin_readLoop_iff {bufSize : Nat} (positive : 0 < bufSize) {buf : Nat → Byte}
    {reads : List (List Byte)} (delivers : Delivers bufSize logCall (start buf []) reads) :
    rejoin bufSize (readLoop bufSize logCall (start buf []) reads).sink = reads.flatten ↔
      bufSize ∣ (lines newline reads.flatten).2.length := by
  have joined := feed_join bufSize newline [] reads.flatten
  have remainder : (feed bufSize newline [] reads.flatten).2.length =
      (lines newline reads.flatten).2.length % bufSize :=
    feed_remainder_length positive List.not_mem_nil (Nat.zero_mod _)
  have calls : rejoin bufSize (readLoop bufSize logCall (start buf []) reads).sink =
      join newline (feed bufSize newline [] reads.flatten).1 := by
    rw [readLoop_eq_split positive delivers, handOver_logCall, List.nil_append, split_eq_feed]
    exact rejoin_recordCalls (feed_terminated positive)
  rw [calls, Nat.dvd_iff_mod_eq_zero, ← remainder, List.length_eq_zero_iff]
  rw [List.nil_append] at joined
  constructor
  · intro whole
    rw [whole] at joined
    exact List.append_right_eq_self.mp joined
  · intro closed
    rw [closed, List.append_nil] at joined
    exact joined

end CloudflareBlog.Mmuniq.ReadLoop

/-! ## The two programs -/

namespace CloudflareBlog.Mmuniq

open CloudflareBlog.Lib.Records CloudflareBlog.Lib.Buffer ReadLoop

namespace Hash

/-- `BUF_SZ` of `mmuniq-hash.c`. -/
def bufSz : Nat := 1024 * 1024

theorem bufSz_pos : 0 < bufSz := by decide

/-- The loop of `main`, with the calls of `process_line` as its result. -/
def main (buf : Nat → Byte) (reads : List (List Byte)) : LoopState (List (List Byte × Nat)) :=
  readLoop bufSz logCall (ReadLoop.start buf []) reads

def Delivered (buf : Nat → Byte) (reads : List (List Byte)) : Prop :=
  ReadLoop.Delivers bufSz logCall (ReadLoop.start buf []) reads

end Hash

namespace Bloom

/-- `BUF_SZ` of `mmuniq-bloom.c`. -/
def bufSz : Nat := 1024 * 1024

theorem bufSz_pos : 0 < bufSz := by decide

/-- The loop of `main`, with the calls of `process_line` as its result. -/
def main (buf : Nat → Byte) (reads : List (List Byte)) : LoopState (List (List Byte × Nat)) :=
  readLoop bufSz logCall (ReadLoop.start buf []) reads

def Delivered (buf : Nat → Byte) (reads : List (List Byte)) : Prop :=
  ReadLoop.Delivers bufSz logCall (ReadLoop.start buf []) reads

end Bloom

/-- The lines passed to `process_line` depend on the stream alone, and every `read` asks for at
least one byte. -/
theorem lines_independent_of_reads (buf : Nat → Byte) (stream : List Byte) (reads : List (List Byte))
    (whole : reads.flatten = stream) :
    (Hash.Delivered buf reads →
      (Hash.main buf reads).sink =
          recordCalls (split Hash.bufSz Hash.bufSz_pos newline stream).1 ∧
        ∀ count, 1 ≤ request Hash.bufSz (Hash.main buf (reads.take count))) ∧
    (Bloom.Delivered buf reads →
      (Bloom.main buf reads).sink =
          recordCalls (split Bloom.bufSz Bloom.bufSz_pos newline stream).1 ∧
        ∀ count, 1 ≤ request Bloom.bufSz (Bloom.main buf (reads.take count))) := by
  subst whole
  refine ⟨fun delivered => ⟨?_, request_pos Hash.bufSz_pos delivered⟩,
    fun delivered => ⟨?_, request_pos Bloom.bufSz_pos delivered⟩⟩
  · rw [Hash.main, readLoop_eq_split Hash.bufSz_pos delivered, handOver_logCall, List.nil_append]
  · rw [Bloom.main, readLoop_eq_split Bloom.bufSz_pos delivered, handOver_logCall, List.nil_append]

/-- Two reads, with the second line left open. -/
theorem lines_independent_of_reads_two :
    (Hash.main (fun _ => 0) [[97, 98], [99, 10, 100]]).sink =
        recordCalls (split Hash.bufSz Hash.bufSz_pos newline [97, 98, 99, 10, 100]).1 ∧
      (Bloom.main (fun _ => 0) [[97, 98], [99, 10, 100]]).sink =
        recordCalls (split Bloom.bufSz Bloom.bufSz_pos newline [97, 98, 99, 10, 100]).1 := by
  have both := lines_independent_of_reads (fun _ => 0) [97, 98, 99, 10, 100]
    [[97, 98], [99, 10, 100]] rfl
  exact ⟨(both.1 ⟨by decide, by decide, by decide, by decide, trivial⟩).1,
    (both.2 ⟨by decide, by decide, by decide, by decide, trivial⟩).1⟩

/-- The lines passed to `process_line` are the whole input exactly if the bytes behind its last
newline are a number of full buffers, as none are. -/
theorem whole_input_iff (buf : Nat → Byte) (stream : List Byte) (reads : List (List Byte))
    (whole : reads.flatten = stream) :
    (Hash.Delivered buf reads →
      (rejoin Hash.bufSz (Hash.main buf reads).sink = stream ↔
        Hash.bufSz ∣ (lines newline stream).2.length)) ∧
    (Bloom.Delivered buf reads →
      (rejoin Bloom.bufSz (Bloom.main buf reads).sink = stream ↔
        Bloom.bufSz ∣ (lines newline stream).2.length)) := by
  subst whole
  exact ⟨fun delivered => rejoin_readLoop_iff Hash.bufSz_pos delivered,
    fun delivered => rejoin_readLoop_iff Bloom.bufSz_pos delivered⟩

/-- A line, its newline, and nothing behind it. -/
theorem whole_input_iff_closed :
    rejoin Hash.bufSz (Hash.main (fun _ => 0) [[97], [10]]).sink = [97, 10] ∧
      rejoin Bloom.bufSz (Bloom.main (fun _ => 0) [[97], [10]]).sink = [97, 10] := by
  have both := whole_input_iff (fun _ => 0) [97, 10] [[97], [10]] rfl
  exact ⟨(both.1 ⟨by decide, by decide, by decide, by decide, trivial⟩).mpr ⟨0, rfl⟩,
    (both.2 ⟨by decide, by decide, by decide, by decide, trivial⟩).mpr ⟨0, rfl⟩⟩

/-- A last line without a newline is not passed on. -/
theorem last_line_lost :
    (Hash.Delivered (fun _ => 0) [[97]] ∧
        rejoin Hash.bufSz (Hash.main (fun _ => 0) [[97]]).sink ≠ [97]) ∧
      (Bloom.Delivered (fun _ => 0) [[97]] ∧
        rejoin Bloom.bufSz (Bloom.main (fun _ => 0) [[97]]).sink ≠ [97]) := by
  refine ⟨⟨⟨by decide, by decide, trivial⟩, ?_⟩, ⟨⟨by decide, by decide, trivial⟩, ?_⟩⟩ <;> decide

end CloudflareBlog.Mmuniq
