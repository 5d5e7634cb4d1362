import CloudflareBlog.Lib.FirstMinimum
import CloudflareBlog.Mmdist.Distance

/-!
# Queries and answers of mmdist

All programs read queries as lines of hexadecimal digits, search a database of hashes for the
nearest one to each, and print its distance and index.  Two of them go query by query, the others
read up to `BATCH_SIZE` queries before they search.

Standard input is the results of successive calls of `fgets`: a line, or nothing where it returned
`NULL`, as it goes on to do when the list ends.  A hash is the address of its bytes.
-/

namespace CloudflareBlog.Mmdist

open CloudflareBlog.Lib CloudflareBlog.Lib.Buffer

/-- `struct mmdist`. -/
structure Database where
  items : Nat
  hashes : Nat → Nat → Byte

/-- `min_dist` and `min_idx`, and what is printed of them. -/
structure Best where
  minDist : BitVec 32
  minIdx : Int
  deriving DecidableEq

/-! ## `parse_hex` -/

/-- `while (a == ' ') a = *src++`.  The string ends with a zero byte. -/
def nextChar : List Byte → Byte × List Byte
  | [] => (0, [])
  | a :: src => if a = 32 then nextChar src else (a, src)

/-- The value of a digit with its `0x20` bit set, `0x100` for other characters.  The source computes it
without branches (`digit_eq`). -/
def digit (a : Byte) : BitVec 32 :=
  if 48 ≤ a ∧ a ≤ 57 then a.setWidth 32 - 48
  else if 97 ≤ a ∧ a ≤ 102 then a.setWidth 32 - 97 + 10
  else 0x100

/-- `BRANCHLESS_IF_ELSE`. -/
def branchlessIfElse (f : Bool) (x y : BitVec 32) : BitVec 32 :=
  (x &&& -(if f then 1 else 0)) ||| (y &&& -(if f then 0 else 1))

/-- The expression of `parse_hex`. -/
theorem digit_eq (a : Byte) :
    digit a = branchlessIfElse (decide (48 ≤ a ∧ a ≤ 57)) (a.setWidth 32 - 48)
      (branchlessIfElse (decide (97 ≤ a ∧ a ≤ 102)) (a.setWidth 32 - 97 + 10) 0x100) := by
  have select (f : Bool) (x y : BitVec 32) : branchlessIfElse f x y = if f then x else y := by
    have ones : -(1 : BitVec 32) = BitVec.allOnes 32 := by decide
    cases f with
    | true => simp only [branchlessIfElse, if_true, ones, BitVec.and_allOnes]; simp
    | false => simp only [branchlessIfElse, Bool.false_eq_true, if_false, ones, BitVec.and_allOnes]; simp
  simp only [select, digit, decide_eq_true_eq]

/-- The loop of `parse_hex`: what it returns, and what it has written.  `rounds` is `max - n`. -/
def parseHexLoop : Nat → List Byte → List Byte → Int × List Byte
  | 0, _, dst => (dst.length, dst)
  | rounds + 1, src, dst =>
    let (a, src) := nextChar src
    if a = 0 then (dst.length, dst)
    else
      let (b, src) := nextChar src
      if b = 0 then (-1, dst)
      else
        let a1 := digit (a ||| 0x20)
        let b1 := digit (b ||| 0x20)
        if a1 = 0x100 ∨ b1 = 0x100 then (-2, dst)
        else parseHexLoop rounds src (dst ++ [((a1 <<< 4) ||| b1).setWidth 8])

def parseHex (src : List Byte) (max : Nat) : Int × List Byte := parseHexLoop max src []

/-- A query from its line, unless the length is wrong. -/
def parseQuery (line : List Byte) : Option (Nat → Byte) :=
  let parsed := parseHex line 144
  if parsed.1 ≠ 144 then none else some fun k => parsed.2.getD k 0

/-! ## The loops over standard input -/

abbrev Stdin := List (Option (List Byte))

/-- How a program ends: behind its loop, with `count` queries, at a bad line, or before it starts
because the size of the database is not a multiple of the block size. -/
inductive Ending where
  | finished (count : Nat)
  | badLine
  | alignError
  deriving DecidableEq

structure Output where
  printed : List Best
  ending : Ending

/-- `main` of the programs without batches, with the search for one query. -/
def eachQuery (search : (Nat → Byte) → Best) : Nat → Stdin → Output
  | count, [] => ⟨[], .finished count⟩
  | count, none :: _ => ⟨[], .finished count⟩
  | count, some line :: rest =>
    match parseQuery line with
    | none => ⟨[], .badLine⟩
    | some query =>
      let output := eachQuery search (count + 1) rest
      ⟨search query :: output.printed, output.ending⟩

def batchSize : Nat := 6

/-- The loop that reads a batch: the queries read, and what follows on standard input. -/
def readBatch : Nat → Stdin → Option (List (Nat → Byte) × Stdin)
  | 0, stdin => some ([], stdin)
  | _ + 1, [] => some ([], [])
  | _ + 1, none :: rest => some ([], rest)
  | more + 1, some line :: rest => do
    let query ← parseQuery line
    let (queries, rest) ← readBatch more rest
    return (query :: queries, rest)

/-- The outer loop of the programs with batches; `search batch j` is what is printed for entry `j`.
Every round but the last reads a line, so one round more than there are results is enough. -/
def batchLoop (search : List (Nat → Byte) → Nat → Best) : Nat → Nat → Stdin → Output
  | 0, count, _ => ⟨[], .finished count⟩
  | rounds + 1, count, stdin =>
    match readBatch batchSize stdin with
    | none => ⟨[], .badLine⟩
    | some (batch, rest) =>
      let printed := (List.range batch.length).map (search batch)
      if batch.length = 0 then ⟨printed, .finished (count + batch.length)⟩
      else
        let output := batchLoop search rounds (count + batch.length) rest
        ⟨printed ++ output.printed, output.ending⟩

/-- `main` of the programs with batches. -/
def eachBatch (search : List (Nat → Byte) → Nat → Best) (stdin : Stdin) : Output :=
  batchLoop search (stdin.length + 1) 0 stdin

/-! ## What the loops print -/

/-- Standard input on which the lines fall into the given batches: a batch that is not full ends
because `fgets` returned `NULL`. -/
def inBatches (groups : List (List (List Byte))) : Stdin :=
  groups.flatMap fun group => group.map some ++ if group.length < batchSize then [none] else []

theorem eachQuery_eq (search : (Nat → Byte) → Best) (count : Nat) {lines : List (List Byte)}
    (valid : ∀ line ∈ lines, (parseQuery line).isSome) :
    eachQuery search count (lines.map some) =
      ⟨(lines.filterMap parseQuery).map search, .finished (count + lines.length)⟩ := by
  induction lines generalizing count with
  | nil => rfl
  | cons line lines inductionHypothesis =>
    obtain ⟨query, parsed⟩ := Option.isSome_iff_exists.mp (valid line List.mem_cons_self)
    rw [List.map_cons, eachQuery, parsed, List.filterMap_cons_some parsed]
    simp only
    rw [inductionHypothesis _ fun later among => valid later (List.mem_cons_of_mem _ among),
      List.length_cons, List.map_cons, Nat.add_right_comm, Nat.add_assoc]

theorem readBatch_lines {more : Nat} {lines : List (List Byte)}
    (valid : ∀ line ∈ lines, (parseQuery line).isSome) (fits : lines.length ≤ more)
    (rest : Stdin) :
    readBatch more (lines.map some ++ rest) = do
      let (queries, rest) ← readBatch (more - lines.length) rest
      return (lines.filterMap parseQuery ++ queries, rest) := by
  induction lines generalizing more with
  | nil => simp
  | cons line lines inductionHypothesis =>
    obtain ⟨query, parsed⟩ := Option.isSome_iff_exists.mp (valid line List.mem_cons_self)
    obtain ⟨more, rfl⟩ := Nat.exists_eq_add_of_le' (Nat.le_trans (Nat.succ_pos _) fits)
    rw [List.length_cons] at fits
    rw [List.map_cons, List.cons_append, readBatch, parsed, List.filterMap_cons_some parsed,
      inductionHypothesis (fun later among => valid later (List.mem_cons_of_mem _ among))
        (Nat.le_of_succ_le_succ fits), List.length_cons, Nat.succ_sub_succ]
    cases readBatch (more - lines.length) rest <;> rfl

theorem readBatch_group {group : List (List Byte)}
    (valid : ∀ line ∈ group, (parseQuery line).isSome) (fits : group.length ≤ batchSize)
    (rest : Stdin) :
    readBatch batchSize
        (group.map some ++ (if group.length < batchSize then [none] else []) ++ rest) =
      some (group.filterMap parseQuery, rest) := by
  rw [List.append_assoc, readBatch_lines valid fits]
  by_cases short : group.length < batchSize
  · obtain ⟨left, more⟩ := Nat.exists_eq_add_of_lt short
    rw [if_pos short, more, show group.length + left + 1 - group.length = left + 1 by omega]
    simp [readBatch]
  · rw [if_neg short, show batchSize - group.length = 0 by omega]
    simp [readBatch]

/-- A batch of lines without a pause, which may be the last. -/
theorem readBatch_take {lines : List (List Byte)}
    (valid : ∀ line ∈ lines, (parseQuery line).isSome) :
    readBatch batchSize (lines.map some) =
      some ((lines.take batchSize).filterMap parseQuery, (lines.drop batchSize).map some) := by
  have validHere : ∀ line ∈ lines.take batchSize, (parseQuery line).isSome := fun line among =>
    valid line (List.mem_of_mem_take among)
  have reads := readBatch_lines validHere (List.length_take_le _ _)
    ((lines.drop batchSize).map some)
  rw [← List.map_append, List.take_append_drop, List.length_take] at reads
  rw [reads]
  by_cases full : batchSize ≤ lines.length
  · rw [Nat.min_eq_left full, Nat.sub_self]
    simp [readBatch]
  · have short : lines.length < batchSize := Nat.lt_of_not_le full
    obtain ⟨left, more⟩ := Nat.exists_eq_add_of_lt short
    rw [Nat.min_eq_right (Nat.le_of_lt short), List.drop_eq_nil_of_le (Nat.le_of_lt short),
      show batchSize - lines.length = left + 1 by omega]
    simp [readBatch]

theorem length_inBatches {groups : List (List (List Byte))}
    (sizes : ∀ group ∈ groups, 0 < group.length ∧ group.length ≤ batchSize) :
    groups.length ≤ (inBatches groups).length := by
  induction groups with
  | nil => exact Nat.le_refl _
  | cons group groups inductionHypothesis =>
    have later := inductionHypothesis fun later among => sizes later (List.mem_cons_of_mem _ among)
    have positive := (sizes group List.mem_cons_self).1
    rw [inBatches, List.flatMap_cons, ← inBatches, List.length_append, List.length_append,
      List.length_map, List.length_cons]
    omega

section

variable (search : List (Nat → Byte) → Nat → Best) (Right : (Nat → Byte) → Best → Prop)
  (right : ∀ batch j query, batch[j]? = some query → batch.length ≤ batchSize →
    Right query (search batch j))

include right

/-- No line of a batch is skipped, so the answers keep their numbers. -/
theorem batch_answers {group : List (List Byte)} (valid : ∀ line ∈ group, (parseQuery line).isSome)
    (fits : group.length ≤ batchSize) :
    (group.filterMap parseQuery).length = group.length ∧
      List.Forall₂ Right (group.filterMap parseQuery)
        ((List.range group.length).map (search (group.filterMap parseQuery))) := by
  have length : (group.filterMap parseQuery).length = group.length := by
    rw [List.length_filterMap_eq_countP, List.countP_eq_length.mpr valid]
  refine ⟨length, List.forall₂_iff_get.mpr ⟨by simp [length], fun j inside _ => ?_⟩⟩
  simp only [List.get_eq_getElem, List.getElem_map, List.getElem_range]
  exact right _ _ _ (List.getElem?_eq_getElem inside) (by omega)

/-- If every entry of a batch is answered right, so are all queries. -/
theorem batchLoop_answers {groups : List (List (List Byte))}
    (sizes : ∀ group ∈ groups, 0 < group.length ∧ group.length ≤ batchSize)
    (valid : ∀ line ∈ groups.flatten, (parseQuery line).isSome) (rounds : Nat)
    (enough : groups.length < rounds) (count : Nat) :
    ∃ printed, batchLoop search rounds count (inBatches groups) =
        ⟨printed, .finished (count + groups.flatten.length)⟩ ∧
      List.Forall₂ Right (groups.flatten.filterMap parseQuery) printed := by
  induction groups generalizing rounds count with
  | nil =>
    -- The round that is left over reads an empty batch, which ends the loop.
    obtain ⟨more, rfl⟩ := Nat.exists_eq_add_of_lt enough
    exact ⟨[], rfl, .nil⟩
  | cons group groups inductionHypothesis =>
    obtain ⟨rounds, rfl⟩ := Nat.exists_eq_add_of_lt enough
    obtain ⟨positive, fits⟩ := sizes group List.mem_cons_self
    have validHere : ∀ line ∈ group, (parseQuery line).isSome := fun line among =>
      valid line (List.mem_append_left _ among)
    obtain ⟨length, answered⟩ := batch_answers search Right right validHere fits
    obtain ⟨printed, later, answeredLater⟩ := inductionHypothesis
      (fun later among => sizes later (List.mem_cons_of_mem _ among))
      (fun line among => valid line (List.mem_append_right _ among))
      ((group :: groups).length + rounds) (by rw [List.length_cons]; omega) (count + group.length)
    refine ⟨(List.range group.length).map (search (group.filterMap parseQuery)) ++ printed, ?_, ?_⟩
    · rw [batchLoop, inBatches, List.flatMap_cons, readBatch_group validHere fits]
      simp only [length, if_neg (Nat.ne_of_gt positive)]
      rw [← inBatches, later]
      simp [Nat.add_assoc]
    · rw [List.flatten_cons, List.filterMap_append]
      exact List.rel_append answered answeredLater

theorem eachBatch_answers {groups : List (List (List Byte))}
    (sizes : ∀ group ∈ groups, 0 < group.length ∧ group.length ≤ batchSize)
    (valid : ∀ line ∈ groups.flatten, (parseQuery line).isSome) :
    ∃ printed, eachBatch search (inBatches groups) =
        ⟨printed, .finished groups.flatten.length⟩ ∧
      List.Forall₂ Right (groups.flatten.filterMap parseQuery) printed := by
  have answers := batchLoop_answers search Right right sizes valid _
    (Nat.lt_succ_of_le (length_inBatches sizes)) 0
  rw [Nat.zero_add] at answers
  exact answers

/-- Without a pause, all batches are full but the last, and an empty one is read behind it. -/
theorem batchLoop_lines (rounds : Nat) {lines : List (List Byte)}
    (valid : ∀ line ∈ lines, (parseQuery line).isSome) (enough : lines.length < rounds)
    (count : Nat) :
    ∃ printed, batchLoop search rounds count (lines.map some) =
        ⟨printed, .finished (count + lines.length)⟩ ∧
      List.Forall₂ Right (lines.filterMap parseQuery) printed := by
  induction rounds generalizing lines count with
  | zero => omega
  | succ rounds inductionHypothesis =>
    obtain ⟨length, answered⟩ := batch_answers search Right right
      (fun line among => valid line (List.mem_of_mem_take among)) (List.length_take_le _ lines)
    have size : (lines.take batchSize).length + (lines.drop batchSize).length = lines.length := by
      rw [← List.length_append, List.take_append_drop]
    rw [batchLoop, readBatch_take valid]
    simp only [length]
    by_cases empty : (lines.take batchSize).length = 0
    · have noLines : lines = [] := by
        rw [List.length_take, batchSize] at empty
        exact List.eq_nil_of_length_eq_zero (by omega)
      rw [if_pos empty, noLines]
      exact ⟨_, rfl, .nil⟩
    · have enoughLater : (lines.drop batchSize).length < rounds := by omega
      obtain ⟨printed, later, answeredLater⟩ := inductionHypothesis
        (fun line among => valid line (List.mem_of_mem_drop among)) enoughLater
        (count + (lines.take batchSize).length)
      rw [if_neg empty, later, Nat.add_assoc, size]
      refine ⟨_, rfl, ?_⟩
      have queries : lines.filterMap parseQuery =
          (lines.take batchSize).filterMap parseQuery ++
            (lines.drop batchSize).filterMap parseQuery := by
        rw [← List.filterMap_append, List.take_append_drop]
      rw [queries]
      exact List.rel_append answered answeredLater

theorem eachBatch_lines {lines : List (List Byte)} (valid : ∀ line ∈ lines, (parseQuery line).isSome) :
    ∃ printed, eachBatch search (lines.map some) = ⟨printed, .finished lines.length⟩ ∧
      List.Forall₂ Right (lines.filterMap parseQuery) printed := by
  have answers := batchLoop_lines search Right right (lines.length + 1) valid
    (Nat.lt_succ_self _) 0
  rw [Nat.zero_add] at answers
  rw [eachBatch, List.length_map]
  exact answers

end

/-- The line of the query that is all zeros. -/
def zeroLine : List Byte := List.replicate 288 48

/-- A batch of two queries and one of one. -/
def zeroGroups : List (List (List Byte)) := [[zeroLine, zeroLine], [zeroLine]]

theorem zeroGroups_valid : ∀ line ∈ zeroGroups.flatten, (parseQuery line).isSome := by
  have valid : (parseQuery zeroLine).isSome := by decide +kernel
  intro line among
  simp only [zeroGroups, List.flatten_cons, List.flatten_nil, List.cons_append, List.nil_append,
    List.mem_cons, List.not_mem_nil, or_false, or_self] at among
  rw [among]
  exact valid

end CloudflareBlog.Mmdist
