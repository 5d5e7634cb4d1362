import Mathlib.Algebra.GroupWithZero.Nat
import Mathlib.Data.List.Basic

/-!
# Cutting a stream into bounded records

A stream of symbols is cut into records in one of two ways: a delimiter ends a record and is
dropped, or a record that reaches `limit` symbols without one is cut off there.  What remains at
the end of the stream is not a record.

`split` says this by looking ahead in the whole stream.  `feed` says it one symbol at a time, with
the unfinished record as its only state, so that a stream can be fed in pieces (`feed_append`).
`split_eq_feed` identifies the two.  `lines` is the plain cutting at delimiters that a reader does
inside one buffer, and `feed_eq_lines` says what a reader has to do after it to keep step with
`feed`.
-/

namespace CloudflareBlog.Lib.Records

variable {α : Type*} [DecidableEq α]

/-- A piece of the stream, and whether a delimiter ended it. -/
structure Record (α : Type*) where
  bytes : List α
  terminated : Bool
  deriving DecidableEq

/-- Take the symbols before the first delimiter when that delimiter is among the next `limit`
symbols, and exactly `limit` symbols otherwise; repeat.  The second component is the remainder, too
short to be cut and without a delimiter. -/
def split (limit : Nat) (positive : 0 < limit) (delimiter : α) (stream : List α) :
    List (Record α) × List α :=
  match found : (stream.take limit).idxOf? delimiter with
  | some index =>
    let more := split limit positive delimiter (stream.drop (index + 1))
    (⟨stream.take index, true⟩ :: more.1, more.2)
  | none =>
    if limit ≤ stream.length then
      let more := split limit positive delimiter (stream.drop limit)
      (⟨stream.take limit, false⟩ :: more.1, more.2)
    else ([], stream)
termination_by stream.length
decreasing_by
  · have member : delimiter ∈ stream.take limit := by
      rw [← List.isSome_idxOf?, found]; rfl
    have nonempty := List.length_pos_of_mem (List.mem_of_mem_take member)
    simp only [List.length_drop]
    omega
  · simp only [List.length_drop]
    omega

/-- One pass over a piece of the stream, starting with the record left unfinished before it. -/
def feed (limit : Nat) (delimiter : α) : List α → List α → List (Record α) × List α
  | unfinished, [] => ([], unfinished)
  | unfinished, symbol :: rest =>
    if symbol = delimiter then
      let more := feed limit delimiter [] rest
      (⟨unfinished, true⟩ :: more.1, more.2)
    else if unfinished.length + 1 = limit then
      let more := feed limit delimiter [] rest
      (⟨unfinished ++ [symbol], false⟩ :: more.1, more.2)
    else feed limit delimiter (unfinished ++ [symbol]) rest

@[simp] theorem feed_nil (limit : Nat) (delimiter : α) (unfinished : List α) :
    feed limit delimiter unfinished [] = ([], unfinished) := rfl

theorem feed_delimiter (limit : Nat) (delimiter : α) (unfinished rest : List α) :
    feed limit delimiter unfinished (delimiter :: rest) =
      (⟨unfinished, true⟩ :: (feed limit delimiter [] rest).1, (feed limit delimiter [] rest).2) := by
  simp [feed]

theorem feed_full {limit : Nat} {delimiter symbol : α} {unfinished : List α}
    (different : symbol ≠ delimiter) (full : unfinished.length + 1 = limit) (rest : List α) :
    feed limit delimiter unfinished (symbol :: rest) =
      (⟨unfinished ++ [symbol], false⟩ :: (feed limit delimiter [] rest).1,
        (feed limit delimiter [] rest).2) := by
  simp [feed, different, full]

theorem feed_open {limit : Nat} {delimiter symbol : α} {unfinished : List α}
    (different : symbol ≠ delimiter) (room : unfinished.length + 1 ≠ limit) (rest : List α) :
    feed limit delimiter unfinished (symbol :: rest) =
      feed limit delimiter (unfinished ++ [symbol]) rest := by
  simp [feed, different, room]

/-- The unfinished record is all the state there is: feeding a stream in two pieces gives the
records of feeding it whole. -/
theorem feed_append (limit : Nat) (delimiter : α) (unfinished first second : List α) :
    feed limit delimiter unfinished (first ++ second) =
      ((feed limit delimiter unfinished first).1 ++
          (feed limit delimiter (feed limit delimiter unfinished first).2 second).1,
        (feed limit delimiter (feed limit delimiter unfinished first).2 second).2) := by
  induction first generalizing unfinished with
  | nil => simp
  | cons symbol rest inductionHypothesis =>
    by_cases delimits : symbol = delimiter
    · subst delimits
      simp [feed_delimiter, inductionHypothesis]
    · by_cases full : unfinished.length + 1 = limit
      · simp [feed_full delimits full, inductionHypothesis]
      · simp [feed_open delimits full, inductionHypothesis]

theorem feed_length_le (limit : Nat) (delimiter : α) (unfinished piece : List α) :
    (feed limit delimiter unfinished piece).2.length ≤ unfinished.length + piece.length := by
  induction piece generalizing unfinished with
  | nil => simp
  | cons symbol rest inductionHypothesis =>
    have restart := inductionHypothesis []
    have longer := inductionHypothesis (unfinished ++ [symbol])
    simp only [List.length_nil, List.length_append, List.length_singleton] at restart longer
    rw [List.length_cons]
    by_cases delimits : symbol = delimiter
    · subst delimits
      rw [feed_delimiter]
      simp only
      omega
    · by_cases full : unfinished.length + 1 = limit
      · rw [feed_full delimits full]
        simp only
        omega
      · rw [feed_open delimits full]
        omega

/-- Symbols other than the delimiter only make the unfinished record longer while they fit. -/
theorem feed_room {limit : Nat} {delimiter : α} {unfinished piece : List α}
    (absent : delimiter ∉ piece) (room : unfinished.length + piece.length < limit) :
    feed limit delimiter unfinished piece = ([], unfinished ++ piece) := by
  induction piece generalizing unfinished with
  | nil => simp
  | cons symbol rest inductionHypothesis =>
    simp only [List.mem_cons, not_or] at absent
    simp only [List.length_cons] at room
    rw [feed_open (Ne.symm absent.1) (by omega), inductionHypothesis absent.2 (by simp; omega)]
    simp

/-- The symbol that makes the unfinished record `limit` long cuts it off. -/
theorem feed_exact {limit : Nat} {delimiter : α} {unfinished piece : List α}
    (absent : delimiter ∉ piece) (nonempty : piece ≠ [])
    (exact : unfinished.length + piece.length = limit) :
    feed limit delimiter unfinished piece = ([⟨unfinished ++ piece, false⟩], []) := by
  obtain ⟨front, last, rfl⟩ := List.eq_nil_or_concat'  piece |>.resolve_left nonempty
  simp only [List.mem_append, List.mem_singleton, not_or] at absent
  simp only [List.length_append, List.length_singleton] at exact
  rw [feed_append, feed_room absent.1 (by omega)]
  rw [feed_full (Ne.symm absent.2) (by simp; omega)]
  simp

/-- The first delimiter found ahead splits the stream around it. -/
theorem cut_of_idxOf? {limit index : Nat} {delimiter : α} {stream : List α}
    (found : (stream.take limit).idxOf? delimiter = some index) :
    index < limit ∧ delimiter ∉ stream.take index ∧
      stream = stream.take index ++ delimiter :: stream.drop (index + 1) := by
  obtain ⟨bound, here, earlier⟩ := List.idxOf?_eq_some_iff.mp found
  simp only [List.length_take, Nat.lt_min] at bound
  simp only [List.getElem_take] at here earlier
  refine ⟨bound.1, ?_, ?_⟩
  · intro member
    obtain ⟨position, inside, equal⟩ := List.mem_iff_getElem.mp member
    simp only [List.length_take, Nat.lt_min] at inside
    exact earlier position inside.1 (by simpa using equal)
  · rw [← here, List.getElem_cons_drop, List.take_append_drop]

/-- Looking ahead and going symbol by symbol cut the stream alike. -/
theorem split_eq_feed (limit : Nat) (positive : 0 < limit) (delimiter : α) (stream : List α) :
    split limit positive delimiter stream = feed limit delimiter [] stream := by
  induction stream using split.induct limit positive delimiter with
  | case1 stream index found inductionHypothesis =>
    -- the delimiter ahead ends the record
    obtain ⟨bound, absent, cut⟩ := cut_of_idxOf? found
    rw [split]
    split
    case h_2 missing => simp [found] at missing
    case h_1 index' found' =>
      obtain rfl : index' = index := by simpa [found'] using found
      rw [inductionHypothesis]
      conv => rhs; rw [cut, feed_append, feed_room absent (by simp; omega), feed_delimiter]
      simp
  | case2 stream missing long inductionHypothesis =>
    -- `limit` symbols without a delimiter are cut off
    have absent : delimiter ∉ stream.take limit := List.idxOf?_eq_none_iff.mp missing
    have whole := List.take_append_drop limit stream
    rw [split]
    split
    case h_1 index' found' => simp [missing] at found'
    case h_2 =>
      rw [if_pos long, inductionHypothesis]
      conv => rhs; rw [← whole, feed_append]
      have exact : (stream.take limit).length = limit := by simp [long]
      rw [feed_exact absent (List.ne_nil_of_length_pos (by omega)) (by simpa using exact)]
      simp
  | case3 stream missing short =>
    -- the rest stays open
    have everything : stream.take limit = stream := List.take_of_length_le (by omega)
    have absent : delimiter ∉ stream := everything ▸ List.idxOf?_eq_none_iff.mp missing
    rw [split]
    split
    case h_1 index' found' => simp [missing] at found'
    case h_2 => rw [if_neg short, feed_room absent (by simp; omega)]; simp

/-! ## Cutting inside one buffer -/

/-- The delimited lines of a buffer, and what follows the last delimiter. -/
def lines (delimiter : α) : List α → List (List α) × List α
  | [] => ([], [])
  | symbol :: rest =>
    if symbol = delimiter then ([] :: (lines delimiter rest).1, (lines delimiter rest).2)
    else
      match lines delimiter rest with
      | ([], tail) => ([], symbol :: tail)
      | (line :: later, tail) => ((symbol :: line) :: later, tail)

theorem lines_absent {delimiter : α} {buffer : List α} (absent : delimiter ∉ buffer) :
    lines delimiter buffer = ([], buffer) := by
  induction buffer with
  | nil => rfl
  | cons symbol rest inductionHypothesis =>
    simp only [List.mem_cons, not_or] at absent
    simp [lines, Ne.symm absent.1, inductionHypothesis absent.2]

theorem lines_delimiter {delimiter : α} {line : List α} (absent : delimiter ∉ line)
    (rest : List α) :
    lines delimiter (line ++ delimiter :: rest) =
      (line :: (lines delimiter rest).1, (lines delimiter rest).2) := by
  induction line with
  | nil => simp [lines]
  | cons symbol line inductionHypothesis =>
    simp only [List.mem_cons, not_or] at absent
    simp [lines, Ne.symm absent.1, inductionHypothesis absent.2]

theorem lines_tail_absent (delimiter : α) (buffer : List α) :
    delimiter ∉ (lines delimiter buffer).2 := by
  induction buffer with
  | nil => simp [lines]
  | cons symbol rest inductionHypothesis =>
    by_cases delimits : symbol = delimiter
    · simpa [lines, delimits] using inductionHypothesis
    · rw [lines, if_neg delimits]
      cases cut : lines delimiter rest with
      | mk found tail =>
        rw [cut] at inductionHypothesis
        cases found with
        | nil => simpa [Ne.symm delimits] using inductionHypothesis
        | cons line later => simpa using inductionHypothesis

/-- Lines, their delimiters and the tail make up the buffer. -/
theorem lines_length (delimiter : α) (buffer : List α) :
    ((lines delimiter buffer).1.map (·.length + 1)).sum + (lines delimiter buffer).2.length =
      buffer.length := by
  induction buffer with
  | nil => rfl
  | cons symbol rest inductionHypothesis =>
    by_cases delimits : symbol = delimiter
    · simp only [lines, delimits, if_true, List.map_cons, List.sum_cons, List.length_cons,
        List.length_nil]
      omega
    · rw [lines, if_neg delimits]
      cases cut : lines delimiter rest with
      | mk found tail =>
        rw [cut] at inductionHypothesis
        cases found with
        | nil => simpa using inductionHypothesis
        | cons line later =>
          simp only [List.map_cons, List.sum_cons, List.length_cons] at inductionHypothesis ⊢
          omega

theorem lines_eq_nil {delimiter : α} {buffer : List α}
    (whole : buffer.length ≤ (lines delimiter buffer).2.length) : (lines delimiter buffer).1 = [] := by
  have total := lines_length delimiter buffer
  cases cut : (lines delimiter buffer).1 with
  | nil => rfl
  | cons line later =>
    rw [cut, List.map_cons, List.sum_cons] at total
    omega

/-- A reader that holds the unfinished record in a buffer of `limit` symbols, appends a piece that
fits, takes out the delimited lines and cuts the rest off when it fills the buffer, does what `feed`
does. -/
theorem feed_eq_lines {limit : Nat} {delimiter : α} {unfinished piece : List α}
    (absent : delimiter ∉ unfinished) (short : unfinished.length < limit)
    (fits : unfinished.length + piece.length ≤ limit) :
    feed limit delimiter unfinished piece =
      let cut := lines delimiter (unfinished ++ piece)
      (cut.1.map (⟨·, true⟩) ++ (if cut.2.length = limit then [⟨cut.2, false⟩] else []),
        if cut.2.length = limit then [] else cut.2) := by
  induction piece generalizing unfinished with
  | nil => simp [lines_absent absent, Nat.ne_of_lt short]
  | cons symbol rest inductionHypothesis =>
    simp only [List.length_cons] at fits
    by_cases delimits : symbol = delimiter
    · subst delimits
      rw [feed_delimiter, lines_delimiter absent]
      rw [inductionHypothesis (by simp) (by simp; omega) (by simp; omega)]
      simp
    · by_cases full : unfinished.length + 1 = limit
      · obtain rfl : rest = [] := List.length_eq_zero_iff.mp (by omega)
        have cut : lines delimiter (unfinished ++ [symbol]) = ([], unfinished ++ [symbol]) :=
          lines_absent (by simp [absent, Ne.symm delimits])
        simp [feed_full delimits full, cut, full]
      · rw [feed_open delimits full]
        rw [inductionHypothesis (by simp [absent, Ne.symm delimits]) (by simp; omega)
          (by simp; omega)]
        simp

/-! ## Joining records again -/

/-- The symbols of the records, with a delimiter behind each record that one ended. -/
def join (delimiter : α) (records : List (Record α)) : List α :=
  records.flatMap fun record =>
    if record.terminated then record.bytes ++ [delimiter] else record.bytes

theorem feed_join (limit : Nat) (delimiter : α) (unfinished piece : List α) :
    join delimiter (feed limit delimiter unfinished piece).1 ++
        (feed limit delimiter unfinished piece).2 = unfinished ++ piece := by
  induction piece generalizing unfinished with
  | nil => simp [join]
  | cons symbol rest inductionHypothesis =>
    have restart := inductionHypothesis []
    rw [join, List.nil_append] at restart
    by_cases delimits : symbol = delimiter
    · subst delimits
      rw [feed_delimiter, join, List.flatMap_cons, if_pos rfl, List.append_assoc, restart]
      simp
    · by_cases full : unfinished.length + 1 = limit
      · rw [feed_full delimits full, join, List.flatMap_cons, List.append_assoc, restart]
        simp
      · rw [feed_open delimits full, inductionHypothesis]
        simp

/-- A record that no delimiter ended has `limit` symbols, and only such a record has. -/
theorem feed_terminated {limit : Nat} {delimiter : α} {unfinished piece : List α}
    (short : unfinished.length < limit) :
    ∀ record ∈ (feed limit delimiter unfinished piece).1,
      record.terminated = decide (record.bytes.length < limit) := by
  induction piece generalizing unfinished with
  | nil => simp
  | cons symbol rest inductionHypothesis =>
    intro record among
    have positive : ([] : List α).length < limit := by
      rw [List.length_nil]
      omega
    by_cases delimits : symbol = delimiter
    · subst delimits
      rw [feed_delimiter, List.mem_cons] at among
      obtain rfl | later := among
      · simp [short]
      · exact inductionHypothesis positive record later
    · by_cases full : unfinished.length + 1 = limit
      · rw [feed_full delimits full, List.mem_cons] at among
        obtain rfl | later := among
        · simp [full]
        · exact inductionHypothesis positive record later
      · rw [feed_open delimits full] at among
        refine inductionHypothesis ?_ record among
        rw [List.length_append, List.length_singleton]
        omega

/-- What is left open is what cutting at `limit` leaves of the symbols behind the last delimiter.
`before` is what came since the delimiter before the piece. -/
theorem feed_remainder_length {limit : Nat} {delimiter : α} {before unfinished piece : List α}
    (positive : 0 < limit) (absent : delimiter ∉ before)
    (same : before.length % limit = unfinished.length) :
    (feed limit delimiter unfinished piece).2.length =
      (lines delimiter (before ++ piece)).2.length % limit := by
  induction piece generalizing before unfinished with
  | nil => rw [feed_nil, List.append_nil, lines_absent absent, same]
  | cons symbol rest inductionHypothesis =>
    by_cases delimits : symbol = delimiter
    · subst delimits
      rw [feed_delimiter, lines_delimiter absent]
      exact inductionHypothesis List.not_mem_nil (Nat.zero_mod _)
    · have absentNext : delimiter ∉ before ++ [symbol] := by simp [absent, Ne.symm delimits]
      have below := Nat.mod_lt before.length positive
      have grown : (before ++ [symbol]).length % limit = (unfinished.length + 1) % limit := by
        rw [List.length_append, List.length_singleton, ← same, Nat.mod_add_mod]
      have moved : before ++ symbol :: rest = (before ++ [symbol]) ++ rest := by simp
      rw [moved]
      by_cases full : unfinished.length + 1 = limit
      · rw [feed_full delimits full]
        refine inductionHypothesis absentNext ?_
        rw [grown, full, Nat.mod_self, List.length_nil]
      · rw [feed_open delimits full]
        refine inductionHypothesis absentNext ?_
        rw [grown, Nat.mod_eq_of_lt (by omega), List.length_append, List.length_singleton]

end CloudflareBlog.Lib.Records
