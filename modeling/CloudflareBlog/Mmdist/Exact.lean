import CloudflareBlog.Mmdist.Queries

/-!
# The exact searches of mmdist

`mmdist-naive`, `mmdist-naive-avx2` and `mmdist-batch-avx2` compare every query with every item of
the database.  They differ in how they compute a distance and in whether they search for several
queries in one pass, and print the same.
-/

namespace CloudflareBlog.Mmdist

open CloudflareBlog.Lib CloudflareBlog.Lib.Buffer CloudflareBlog.Lib.Simd

/-- `min_dist = 0xffffffff; min_idx = -1`. -/
def unknown : Best := ⟨0xffffffff, -1⟩

/-- The comparison with one item: `if (dist < min_dist)`. -/
def improve (best : Best) (dist : BitVec 32) (i : Nat) : Best :=
  if dist < best.minDist then ⟨dist, i⟩ else best

/-- The loop over the items, for one query. -/
def searchAll (dist : (Nat → Byte) → (Nat → Byte) → BitVec 32) (state : Database)
    (query : Nat → Byte) : Nat → Best
  | 0 => unknown
  | i + 1 => improve (searchAll dist state query i) (dist query (state.hashes i)) i

/-- The loop over the items, for the entries below `batchSize` of a batch. -/
def searchBatch (dist : (Nat → Byte) → (Nat → Byte) → BitVec 32) (state : Database)
    (query : Nat → Nat → Byte) (batchSize : Nat) : Nat → Nat → Best
  | 0 => fun _ => unknown
  | i + 1 =>
    let best := searchBatch dist state query batchSize i
    fun j => if j < batchSize then improve (best j) (dist (query j) (state.hashes i)) i else best j

/-- The entry `j` of a batch; entries beyond the batch are not read. -/
def entry (batch : List (Nat → Byte)) (j : Nat) : Nat → Byte := batch.getD j fun _ => 0

namespace Naive

def main (state : Database) (stdin : Stdin) : Output :=
  eachQuery (fun query => searchAll fullDistance state query state.items) 0 stdin

end Naive

namespace NaiveAvx2

def main (state : Database) (stdin : Stdin) : Output :=
  eachQuery (fun query => searchAll fullDistanceAvx2 state query state.items) 0 stdin

end NaiveAvx2

namespace BatchAvx2

def main (state : Database) (stdin : Stdin) : Output :=
  eachBatch (fun batch => searchBatch fullDistanceAvx2 state (entry batch) batch.length state.items)
    stdin

end BatchAvx2

/-! ## The search finds the first minimum -/

/-- The distances of a query from the items. -/
def costs (state : Database) (query : Nat → Byte) (i : Nat) : Nat :=
  squaredDistance query (state.hashes i) 144

theorem costs_lt (state : Database) (query : Nat → Byte) (i : Nat) :
    costs state query i < 0xffffffff := by
  have := squaredDistance_le query (state.hashes i) 144
  rw [costs]
  omega

/-- `min_idx` of a position. -/
def position : Option Nat → Int
  | none => -1
  | some i => i

/-- The state of a search that has seen `count` items, starting from a limit in `min_dist`. -/
def Known (cost : Nat → Nat) (limit count : Nat) (best : Best) : Prop :=
  ∃ index, FirstMinimum cost limit count best.minDist.toNat index ∧ best.minIdx = position index

theorem Known.improve {cost : Nat → Nat} {limit count : Nat} {best : Best}
    (known : Known cost limit count best) {dist : BitVec 32} (exact : dist.toNat = cost count) :
    Known cost limit (count + 1) (improve best dist count) := by
  obtain ⟨index, minimum, sameIndex⟩ := known
  rw [Mmdist.improve]
  by_cases below : dist < best.minDist
  · rw [if_pos below]
    refine ⟨some count, ?_, rfl⟩
    rw [BitVec.lt_def, exact] at below
    rw [show (⟨dist, count⟩ : Best).minDist.toNat = cost count from exact]
    exact minimum.take below
  · rw [if_neg below]
    rw [BitVec.lt_def, exact] at below
    exact ⟨index, minimum.skip (Nat.le_of_not_lt below), sameIndex⟩

theorem searchAll_known {dist : (Nat → Byte) → (Nat → Byte) → BitVec 32}
    (exact : ∀ a b, (dist a b).toNat = squaredDistance a b 144) (state : Database)
    (query : Nat → Byte) (count : Nat) :
    Known (costs state query) 0xffffffff count (searchAll dist state query count) := by
  induction count with
  | zero => exact ⟨none, FirstMinimum.start _ _, rfl⟩
  | succ count inductionHypothesis => exact inductionHypothesis.improve (exact _ _)

/-- The entries of a batch are searched for side by side. -/
theorem searchBatch_eq (dist : (Nat → Byte) → (Nat → Byte) → BitVec 32) (state : Database)
    (query : Nat → Nat → Byte) {batchSize j : Nat} (inside : j < batchSize) (count : Nat) :
    searchBatch dist state query batchSize count j = searchAll dist state (query j) count := by
  induction count with
  | zero => rfl
  | succ count inductionHypothesis =>
    rw [searchBatch, searchAll, ← inductionHypothesis]
    exact if_pos inside

theorem entry_of_getElem? {batch : List (Nat → Byte)} {j : Nat} {query : Nat → Byte}
    (isEntry : batch[j]? = some query) : entry batch j = query ∧ j < batch.length := by
  obtain ⟨inside, -⟩ := List.getElem?_eq_some_iff.mp isEntry
  rw [entry, List.getD_eq_getElem?_getD, isEntry]
  exact ⟨rfl, inside⟩

/-! ## What is printed -/

/-- The answer to a query: the least of the distances and the first index that has it. -/
def Nearest (state : Database) (query : Nat → Byte) (printed : Best) : Prop :=
  (state.items = 0 → printed = ⟨0xffffffff, -1⟩) ∧
    (0 < state.items → ∃ i < state.items, printed.minIdx = i ∧
      printed.minDist.toNat = costs state query i ∧
      (∀ j < state.items, costs state query i ≤ costs state query j) ∧
      ∀ j < i, costs state query i < costs state query j)

theorem nearest_of_known {state : Database} {query : Nat → Byte} {printed : Best}
    (known : Known (costs state query) 0xffffffff state.items printed) :
    Nearest state query printed := by
  obtain ⟨index, minimum, sameIndex⟩ := known
  obtain ⟨bound, isBound⟩ : ∃ bound, printed.minDist.toNat = bound := ⟨_, rfl⟩
  rw [isBound] at minimum
  cases minimum with
  | absent above =>
    have none : ¬0 < state.items := fun positive => by
      have := above 0 positive
      have := costs_lt state query 0
      omega
    refine ⟨fun _ => ?_, fun positive => absurd positive none⟩
    obtain ⟨minDist, minIdx⟩ := printed
    simp only at isBound sameIndex
    rw [sameIndex, position, BitVec.eq_of_toNat_eq (y := 0xffffffff) isBound]
  | found i inside below least first =>
    exact ⟨fun none => by omega, fun _ => ⟨i, inside, sameIndex, isBound, least, first⟩⟩

theorem nearest_searchAll {dist : (Nat → Byte) → (Nat → Byte) → BitVec 32}
    (exact : ∀ a b, (dist a b).toNat = squaredDistance a b 144) (state : Database)
    (query : Nat → Byte) : Nearest state query (searchAll dist state query state.items) :=
  nearest_of_known (searchAll_known exact state query state.items)

theorem fullDistanceAvx2_eq : fullDistanceAvx2 = fullDistance := by
  funext a b
  exact BitVec.eq_of_toNat_eq ((toNat_fullDistanceAvx2 a b).trans (toNat_fullDistance a b).symm)

theorem searchBatch_entry (dist : (Nat → Byte) → (Nat → Byte) → BitVec 32) (state : Database)
    {batch : List (Nat → Byte)} {j : Nat} {query : Nat → Byte} (isEntry : batch[j]? = some query) :
    searchBatch dist state (entry batch) batch.length state.items j =
      searchAll dist state query state.items := by
  obtain ⟨isQuery, inside⟩ := entry_of_getElem? isEntry
  rw [searchBatch_eq _ _ _ inside, isQuery]

/-- The three programs print the same answers, which are the nearest items, and no lane overflows on
the way. -/
theorem exact_searches_agree (state : Database) (groups : List (List (List Byte)))
    (sizes : ∀ group ∈ groups, 0 < group.length ∧ group.length ≤ batchSize)
    (valid : ∀ line ∈ groups.flatten, (parseQuery line).isSome) :
    (∃ printed : List Best,
      Naive.main state (groups.flatten.map some) =
          ⟨printed, .finished groups.flatten.length⟩ ∧
        NaiveAvx2.main state (groups.flatten.map some) =
          ⟨printed, .finished groups.flatten.length⟩ ∧
        BatchAvx2.main state (inBatches groups) =
          ⟨printed, .finished groups.flatten.length⟩ ∧
        List.Forall₂ (Nearest state) (groups.flatten.filterMap parseQuery) printed) ∧
      ∀ a b, fullDistanceAvx2 a b = fullDistance a b ∧ LanesExact a b := by
  refine ⟨⟨(groups.flatten.filterMap parseQuery).map fun query =>
    searchAll fullDistance state query state.items, ?_, ?_, ?_, ?_⟩, fun a b => ⟨?_, ?_⟩⟩
  · rw [Naive.main, eachQuery_eq _ _ valid, Nat.zero_add]
  · rw [NaiveAvx2.main, eachQuery_eq _ _ valid, Nat.zero_add, fullDistanceAvx2_eq]
  · rw [BatchAvx2.main, fullDistanceAvx2_eq]
    -- a batch answers each of its queries as a search for it alone does
    obtain ⟨printed, prints, same⟩ := eachBatch_answers
      (fun batch => searchBatch fullDistance state (entry batch) batch.length state.items)
      (fun query answer => searchAll fullDistance state query state.items = answer)
      (fun batch j query isEntry _ => (searchBatch_entry fullDistance state isEntry).symm) sizes valid
    have printedSame := List.forall₂_map_left_iff.mpr same
    rw [List.forall₂_eq_eq_eq] at printedSame
    rw [prints, printedSame]
  · refine List.forall₂_map_right_iff.mpr (List.forall₂_same.mpr fun query _ => ?_)
    exact nearest_searchAll toNat_fullDistance state query
  · rw [fullDistanceAvx2_eq]
  · exact lanes_exact a b

/-- Three items, the last two of them alike. -/
def tiedItems : Database := ⟨3, fun i _ => if i = 0 then 255 else 1⟩

/-- The line of the query that is all ones. -/
def onesLine : List Byte := List.replicate 288 102

/-- Two queries, a pause, and one more: of the two nearest items the first is printed. -/
theorem exact_searches_agree_three :
    Naive.main tiedItems [some zeroLine, some onesLine, some zeroLine] =
        ⟨[⟨144, 1⟩, ⟨0, 0⟩, ⟨144, 1⟩], .finished 3⟩ ∧
      NaiveAvx2.main tiedItems [some zeroLine, some onesLine, some zeroLine] =
        ⟨[⟨144, 1⟩, ⟨0, 0⟩, ⟨144, 1⟩], .finished 3⟩ ∧
      BatchAvx2.main tiedItems [some zeroLine, some onesLine, none, some zeroLine, none] =
        ⟨[⟨144, 1⟩, ⟨0, 0⟩, ⟨144, 1⟩], .finished 3⟩ := by
  obtain ⟨⟨printed, naive, naiveAvx2, batchAvx2, -⟩, -⟩ :=
    exact_searches_agree tiedItems [[zeroLine, onesLine], [zeroLine]] (by decide) (by decide +kernel)
  have answers : (Naive.main tiedItems [some zeroLine, some onesLine, some zeroLine]).printed =
      [⟨144, 1⟩, ⟨0, 0⟩, ⟨144, 1⟩] := by
    decide +kernel
  obtain rfl := (congrArg Output.printed naive).symm.trans answers
  exact ⟨naive, naiveAvx2, batchAvx2⟩

end CloudflareBlog.Mmdist
