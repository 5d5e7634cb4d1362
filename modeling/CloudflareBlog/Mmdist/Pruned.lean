import CloudflareBlog.Mmdist.Transposed

/-!
# The searches of mmdist that prune

`mmdist-short-avx2` and `mmdist-short-inv` take a threshold, look at the first bytes of a hash
first, and compute the whole distance only if that of the prefix leaves a chance.  A prefix is
never further away than the whole, so what they skip would not have changed the answer.
-/

namespace CloudflareBlog.Mmdist

open CloudflareBlog.Lib CloudflareBlog.Lib.Buffer

/-- `threshold`, from the command line. -/
def threshold (argument : Option (BitVec 32)) : BitVec 32 := argument.getD 0xffffffff

namespace ShortAvx2

def mixerSize : Nat := 32

/-- The comparison with one item. -/
def improve (threshold : BitVec 32) (query shortHash fullHash : Nat → Byte) (best : Best)
    (i : Nat) : Best :=
  let shortDist := distanceAvx2 query shortHash mixerSize
  if best.minDist < shortDist ∨ threshold < shortDist then best
  else
    let fullDist := shortDist + distanceAvx2 (fun k => query (mixerSize + k))
      (fun k => fullHash (mixerSize + k)) (144 - mixerSize)
    if fullDist < best.minDist ∧ fullDist < threshold then ⟨fullDist, i⟩ else best

/-- The loop over the items. -/
def search (threshold : BitVec 32) (state : Database) (query : Nat → Nat → Byte) (batchSize : Nat) :
    Nat → Nat → Best
  | 0 => fun _ => unknown
  | i + 1 =>
    let shorth := copyPrefixes state mixerSize state.items
    let best := search threshold state query batchSize i
    fun j =>
      if j < batchSize then
        improve threshold (query j) (fun k => shorth (i * mixerSize + k)) (state.hashes i) (best j) i
      else best j

def main (argument : Option (BitVec 32)) (state : Database) (stdin : Stdin) : Output :=
  eachBatch (fun batch =>
    search (threshold argument) state (entry batch) batch.length state.items) stdin

end ShortAvx2

namespace ShortInv

/-- `scores[c][l]` after some rounds over `j`. -/
def score (sv query : Nat → Byte) (i l : Nat) : Nat → BitVec 32
  | 0 => 0
  | j + 1 =>
    let t : BitVec 16 := (sv (i * mixerSize + j * laneSize + l)).setWidth 16
    let delta : BitVec 32 := ((query j).setWidth 16).setWidth 32 - t.setWidth 32
    score sv query i l j + delta * delta

/-- The comparison with one item, of the prefix distance `score`. -/
def improve (threshold : BitVec 32) (query fullHash : Nat → Byte) (score : BitVec 32) (best : Best)
    (i : Nat) : Best :=
  if score < best.minDist ∧ score ≤ threshold then
    let fullDist := score + distance (fun k => query (mixerSize + k))
      (fun k => fullHash (mixerSize + k)) (144 - mixerSize)
    if fullDist < best.minDist ∧ fullDist < threshold then ⟨fullDist, i⟩ else best
  else best

/-- The loop over the lanes of a block. -/
def searchBlock (threshold : BitVec 32) (state : Database) (sv query : Nat → Byte) (i : Nat)
    (best : Best) : Nat → Best
  | 0 => best
  | l + 1 =>
    improve threshold query (state.hashes (i + l)) (score sv query i l mixerSize)
      (searchBlock threshold state sv query i best l) (i + l)

/-- The loop over the blocks.  All entries are searched for, those beyond the batch too. -/
def search (threshold : BitVec 32) (state : Database) (query : Nat → Nat → Byte) :
    Nat → Nat → Best
  | 0 => fun _ => unknown
  | block + 1 =>
    let sv := shuffle state (state.items / laneSize)
    let best := search threshold state query block
    fun c => searchBlock threshold state sv (query c) (block * laneSize) (best c) laneSize

/-- `main`; `entry` is the query array, zero where no query was read. -/
def main (argument : Option (BitVec 32)) (state : Database) (stdin : Stdin) : Output :=
  if state.items % laneSize ≠ 0 then ⟨[], .alignError⟩
  else
    eachBatch (fun batch =>
      search (threshold argument) state (entry batch) (state.items / laneSize)) stdin

end ShortInv

/-! ## Searching below a threshold -/

/-- The answer to a query: the least of the distances and the first index that has it, if it is
below the limit, and else -1 twice. -/
def Answers (state : Database) (limit : Nat) (query : Nat → Byte) (printed : Best) : Prop :=
  (printed = ⟨-1, -1⟩ ∧ ∀ i < state.items, limit ≤ costs state query i) ∨
    ∃ i < state.items, printed.minIdx = i ∧ printed.minDist.toNat = costs state query i ∧
      costs state query i < limit ∧ (∀ j < state.items, costs state query i ≤ costs state query j) ∧
      ∀ j < i, costs state query i < costs state query j

/-- How the best distance below a limit and its index appear in `min_dist` and `min_idx`. -/
def Shows (best : Best) (bound : Nat) : Option Nat → Prop
  | none => best = unknown
  | some i => best.minDist.toNat = bound ∧ best.minIdx = i

/-- The state of a search that compares with `min_dist` and with a threshold. -/
def Pruned (cost : Nat → Nat) (threshold : BitVec 32) (count : Nat) (best : Best) : Prop :=
  ∃ bound index, FirstMinimum cost threshold.toNat count bound index ∧ Shows best bound index

section

variable {cost : Nat → Nat} {threshold : BitVec 32} {count : Nat} {best : Best}

theorem Pruned.start (cost : Nat → Nat) (threshold : BitVec 32) : Pruned cost threshold 0 unknown :=
  ⟨threshold.toNat, none, FirstMinimum.start _ _, rfl⟩

/-- The better of `min_dist` and the threshold is the best distance known. -/
theorem bound_eq_min {bound : Nat} {index : Option Nat}
    (minimum : FirstMinimum cost threshold.toNat count bound index) (shows : Shows best bound index) :
    bound = min best.minDist.toNat threshold.toNat := by
  have := threshold.isLt
  cases minimum with
  | absent above =>
    rw [show best = unknown from shows, show unknown.minDist.toNat = 0xffffffff from rfl]
    omega
  | found i inside below least first =>
    rw [shows.1]
    omega

theorem Pruned.skip (pruned : Pruned cost threshold count best)
    (above : best.minDist.toNat ≤ cost count ∨ threshold.toNat ≤ cost count) :
    Pruned cost threshold (count + 1) best := by
  obtain ⟨bound, index, minimum, shows⟩ := pruned
  have bounded := bound_eq_min minimum shows
  exact ⟨bound, index, minimum.skip (by omega), shows⟩

theorem Pruned.compare (pruned : Pruned cost threshold count best) {dist : BitVec 32}
    (exact : dist.toNat = cost count) :
    Pruned cost threshold (count + 1)
      (if dist < best.minDist ∧ dist < threshold then ⟨dist, count⟩ else best) := by
  by_cases better : dist < best.minDist ∧ dist < threshold
  · rw [if_pos better]
    rw [BitVec.lt_def, BitVec.lt_def, exact] at better
    obtain ⟨bound, index, minimum, shows⟩ := pruned
    have bounded := bound_eq_min minimum shows
    exact ⟨cost count, some count, minimum.take (by omega), exact, rfl⟩
  · rw [if_neg better]
    rw [BitVec.lt_def, BitVec.lt_def, exact] at better
    exact pruned.skip (by omega)

end

theorem answers_of_pruned {state : Database} {threshold : BitVec 32} {query : Nat → Byte}
    {best : Best} (pruned : Pruned (costs state query) threshold state.items best) :
    Answers state threshold.toNat query best := by
  obtain ⟨bound, index, minimum, shows⟩ := pruned
  cases minimum with
  | absent above => exact .inl ⟨shows, above⟩
  | found i inside below least first =>
    exact .inr ⟨i, inside, shows.2, shows.1, below, least, first⟩

theorem toNat_add_rest {state : Database} {query : Nat → Byte} {i size : Nat} (small : size ≤ 144)
    {prefixDist rest : BitVec 32}
    (isPrefix : prefixDist.toNat = squaredDistance query (state.hashes i) size)
    (isRest : rest.toNat = squaredDistance (fun k => query (size + k))
      (fun k => state.hashes i (size + k)) (144 - size)) :
    (prefixDist + rest).toNat = costs state query i := by
  have whole := squaredDistance_add query (state.hashes i) size (144 - size)
  rw [show size + (144 - size) = 144 by omega] at whole
  have small := costs_lt state query i
  rw [costs] at small ⊢
  rw [BitVec.toNat_add, isPrefix, isRest, ← whole]
  omega

/-! ## `mmdist-short-avx2` -/

namespace ShortAvx2

theorem improve_pruned {threshold : BitVec 32} {state : Database} {query shortHash : Nat → Byte}
    {best : Best} {i : Nat} (copied : ∀ k < mixerSize, shortHash k = state.hashes i k)
    (pruned : Pruned (costs state query) threshold i best) :
    Pruned (costs state query) threshold (i + 1)
      (improve threshold query shortHash (state.hashes i) best i) := by
  have short : (distanceAvx2 query shortHash mixerSize).toNat =
      squaredDistance query (state.hashes i) mixerSize :=
    (toNat_distanceAvx2 query shortHash 2 (by decide)).trans
      (squaredDistance_congr (fun _ _ => rfl) copied)
  have least : squaredDistance query (state.hashes i) mixerSize ≤ costs state query i :=
    squaredDistance_mono _ _ (by decide)
  rw [improve]
  simp only
  split
  next far =>
    rw [BitVec.lt_def, BitVec.lt_def, short] at far
    exact pruned.skip (by omega)
  next =>
    exact pruned.compare (toNat_add_rest (by decide) short
      (toNat_distanceAvx2 _ _ 7 (by decide)))

theorem search_pruned (threshold : BitVec 32) (state : Database) (query : Nat → Nat → Byte)
    {batchSize j : Nat} (inside : j < batchSize) {count : Nat} (within : count ≤ state.items) :
    Pruned (costs state (query j)) threshold count
      (search threshold state query batchSize count j) := by
  induction count with
  | zero => exact Pruned.start _ _
  | succ count inductionHypothesis =>
    rw [search]
    simp only [if_pos inside]
    exact improve_pruned (fun k narrow => copyPrefixes_row state mixerSize within narrow)
      (inductionHypothesis (Nat.le_of_succ_le within))

theorem search_answers (argument : Option (BitVec 32)) (state : Database)
    {batch : List (Nat → Byte)} {j : Nat} {query : Nat → Byte} (isEntry : batch[j]? = some query) :
    Answers state (threshold argument).toNat query
      (search (threshold argument) state (entry batch) batch.length state.items j) := by
  obtain ⟨isQuery, inside⟩ := entry_of_getElem? isEntry
  rw [← isQuery]
  exact answers_of_pruned (search_pruned _ state _ inside (Nat.le_refl _))

end ShortAvx2

/-! ## `mmdist-short-inv` -/

namespace ShortInv

theorem score_eq (sv query : Nat → Byte) (i l count : Nat) :
    score sv query i l count =
      distance query (fun j => sv (i * mixerSize + j * laneSize + l)) count := by
  induction count with
  | zero => rfl
  | succ count inductionHypothesis => rw [score, distance, inductionHypothesis]

theorem improve_pruned {threshold score : BitVec 32} {state : Database} {query : Nat → Byte}
    {best : Best} {i : Nat}
    (isPrefix : score.toNat = squaredDistance query (state.hashes i) mixerSize)
    (pruned : Pruned (costs state query) threshold i best) :
    Pruned (costs state query) threshold (i + 1)
      (improve threshold query (state.hashes i) score best i) := by
  have least : squaredDistance query (state.hashes i) mixerSize ≤ costs state query i :=
    squaredDistance_mono _ _ (by decide)
  rw [improve]
  split
  next => exact pruned.compare (toNat_add_rest (by decide) isPrefix (toNat_distance _ _ _ (by decide)))
  next far =>
    rw [BitVec.lt_def, BitVec.le_def, isPrefix] at far
    exact pruned.skip (by omega)

theorem searchBlock_pruned {threshold : BitVec 32} {state : Database} {sv query : Nat → Byte}
    {i : Nat} {best : Best}
    (shuffled : ∀ l < laneSize, ∀ k < mixerSize,
      sv (i * mixerSize + k * laneSize + l) = state.hashes (i + l) k)
    (pruned : Pruned (costs state query) threshold i best) {count : Nat} (lanes : count ≤ laneSize) :
    Pruned (costs state query) threshold (i + count)
      (searchBlock threshold state sv query i best count) := by
  induction count with
  | zero => exact pruned
  | succ count inductionHypothesis =>
    have isPrefix : (score sv query i count mixerSize).toNat =
        squaredDistance query (state.hashes (i + count)) mixerSize := by
      rw [score_eq, toNat_distance _ _ _ (by decide)]
      exact squaredDistance_congr (fun _ _ => rfl) (shuffled count lanes)
    exact improve_pruned isPrefix (inductionHypothesis (Nat.le_of_succ_le lanes))

theorem search_pruned (threshold : BitVec 32) (state : Database) (query : Nat → Nat → Byte)
    (c : Nat) {blocks : Nat} (within : blocks ≤ state.items / laneSize) :
    Pruned (costs state (query c)) threshold (blocks * laneSize)
      (search threshold state query blocks c) := by
  induction blocks with
  | zero => exact Pruned.start _ _
  | succ blocks inductionHypothesis =>
    rw [search, Nat.succ_mul]
    refine searchBlock_pruned (fun l lane k inside => ?_)
      (inductionHypothesis (Nat.le_of_succ_le within)) (Nat.le_refl _)
    rw [Nat.add_assoc]
    exact shuffle_entry state within lane inside

theorem search_answers (argument : Option (BitVec 32)) {state : Database}
    (aligned : state.items % laneSize = 0) {batch : List (Nat → Byte)} {j : Nat}
    {query : Nat → Byte} (isEntry : batch[j]? = some query) :
    Answers state (threshold argument).toNat query
      (search (threshold argument) state (entry batch) (state.items / laneSize) j) := by
  have pruned := search_pruned (threshold argument) state (entry batch) j
    (Nat.le_refl (state.items / laneSize))
  rw [Nat.div_mul_cancel (Nat.dvd_of_mod_eq_zero aligned), (entry_of_getElem? isEntry).1] at pruned
  exact answers_of_pruned pruned

end ShortInv

/-- Both programs print the nearest item if it is below the threshold. -/
theorem pruned_searches_exact (argument : Option (BitVec 32)) (state : Database)
    (groups : List (List (List Byte)))
    (sizes : ∀ group ∈ groups, 0 < group.length ∧ group.length ≤ batchSize)
    (valid : ∀ line ∈ groups.flatten, (parseQuery line).isSome) :
    (∃ printed : List Best,
      ShortAvx2.main argument state (inBatches groups) =
          ⟨printed, .finished groups.flatten.length⟩ ∧
        List.Forall₂ (Answers state (threshold argument).toNat)
          (groups.flatten.filterMap parseQuery) printed) ∧
    (state.items % 16 = 0 → ∃ printed : List Best,
      ShortInv.main argument state (inBatches groups) =
          ⟨printed, .finished groups.flatten.length⟩ ∧
        List.Forall₂ (Answers state (threshold argument).toNat)
          (groups.flatten.filterMap parseQuery) printed) := by
  refine ⟨eachBatch_answers _ _ (fun batch j query isEntry _ => ?_) sizes valid, fun aligned => ?_⟩
  · exact ShortAvx2.search_answers argument state isEntry
  · have aligned : state.items % laneSize = 0 := aligned
    rw [ShortInv.main, if_neg (not_not_intro aligned)]
    exact eachBatch_answers _ _
      (fun batch j query isEntry _ => ShortInv.search_answers argument aligned isEntry) sizes valid

/-- Two queries, a pause, and one more, against a block of sixteen items, below 65535. -/
theorem pruned_searches_exact_three :
    ∃ short inv : List Best,
      ShortAvx2.main (some 65535) ⟨16, fun i _ => BitVec.ofNat 8 i⟩
          [some zeroLine, some zeroLine, none, some zeroLine, none] = ⟨short, .finished 3⟩ ∧
        ShortInv.main (some 65535) ⟨16, fun i _ => BitVec.ofNat 8 i⟩
          [some zeroLine, some zeroLine, none, some zeroLine, none] = ⟨inv, .finished 3⟩ := by
  obtain ⟨⟨short, shortPrints, -⟩, aligned⟩ := pruned_searches_exact (some 65535)
    ⟨16, fun i _ => BitVec.ofNat 8 i⟩ zeroGroups (by decide) zeroGroups_valid
  obtain ⟨inv, invPrints, -⟩ := aligned rfl
  exact ⟨short, inv, shortPrints, invPrints⟩

end CloudflareBlog.Mmdist
