import CloudflareBlog.Lib.BitWalk
import CloudflareBlog.Mmdist.Pruned

/-!
# `mmdist-short-inv-avx2`

The distances of the prefixes of sixteen hashes at a time, in lanes of sixteen bits that saturate.
A score starts at 1, so that "score minus threshold saturates at zero" says that the distance of the
prefix is less than the threshold (`candidate_iff`).  The threshold is kept below 65535, where a
saturated score is still above it.  The lanes that pass are walked in order and compared with whole
distances.
-/

namespace CloudflareBlog.Mmdist.ShortInvAvx2

open CloudflareBlog.Lib CloudflareBlog.Lib.Buffer CloudflareBlog.Lib.Simd

/-- `if (threshold >= UINT16_MAX) threshold = UINT16_MAX - 1`. -/
def limit (argument : Option (BitVec 32)) : BitVec 32 :=
  if 65535 ≤ threshold argument then 65535 - 1 else threshold argument

/-- `min_dist[c]`, `min_idx[c]` and `thres_8[c]`. -/
structure Slot where
  best : Best
  thres8 : Lanes 16 16

def start (threshold : BitVec 32) : Slot where
  best := ⟨threshold, -1⟩
  thres8 := set1 (threshold.setWidth 16)

/-- `score_16[c]` after some rounds over `j`. -/
def score (sv query : Nat → Byte) (ii : Nat) : Nat → Lanes 16 16
  | 0 => set1 1
  | j + 1 =>
    let h := cvtepu8 (loadu sv (ii * mixerSize + j * laneSize))
    let n : Lanes 16 16 := set1 ((query j).setWidth 16)
    let d := sub h n
    adds (score sv query ii j) (mullo d d)

/-- `mm[c]`: two bits for each lane whose score is not above the threshold. -/
def candidates (score thres8 : Lanes 16 16) : BitVec 64 :=
  let d := subs score thres8
  let x := cmpeq setzero d
  (movemask (bytes x)).setWidth 64

/-- The body of the walk, for the bit `bitno`. -/
def visit (state : Database) (query : Nat → Byte) (ii bitno : Nat) (slot : Slot) : Slot :=
  let j := bitno / 2
  let fullIdx := ii + j
  let fullDist := distanceAvx2 query (state.hashes fullIdx) 144
  if fullDist < slot.best.minDist then
    { best := ⟨fullDist, fullIdx⟩, thres8 := set1 (fullDist.setWidth 16) }
  else slot

/-- The loop body for one block and all entries. -/
def searchBlock (state : Database) (sv : Nat → Byte) (query : Nat → Nat → Byte) (ii : Nat)
    (slots : Nat → Slot) : Nat → Slot :=
  let mm (c : Nat) := candidates (score sv (query c) ii mixerSize) (slots c).thres8
  let cc := (List.range batchSize).foldl (fun cc c => cc ||| mm c) 0
  if cc = 0 then slots
  else fun c =>
    if mm c = 0 then slots c
    else walkBits (visit state (query c) ii) 64 (mm c &&& 0x5555555555555555) (slots c)

/-- The loop over the blocks. -/
def search (threshold : BitVec 32) (state : Database) (query : Nat → Nat → Byte) :
    Nat → Nat → Slot
  | 0 => fun _ => start threshold
  | block + 1 =>
    searchBlock state (shuffle state (state.items / laneSize)) query (block * laneSize)
      (search threshold state query block)

def report (slot : Slot) : Best :=
  if slot.best.minIdx ≠ -1 then slot.best else ⟨-1, slot.best.minIdx⟩

/-- `main`; `entry` is the query array, zero where no query was read. -/
def main (argument : Option (BitVec 32)) (state : Database) (stdin : Stdin) : Output :=
  if state.items % laneSize ≠ 0 then ⟨[], .alignError⟩
  else
    eachBatch (fun batch c =>
      report (search (limit argument) state (entry batch) (state.items / laneSize) c)) stdin

/-! ## The scores -/

theorem toNat_score {state : Database} {sv query : Nat → Byte} {ii : Nat}
    (shuffled : ∀ l < laneSize, ∀ k < mixerSize,
      sv (ii * mixerSize + k * laneSize + l) = state.hashes (ii + l) k)
    (lane : Fin 16) {count : Nat} (within : count ≤ mixerSize) :
    (score sv query ii count lane).toNat =
      min 65535 (1 + squaredDistance query (state.hashes (ii + lane)) count) := by
  induction count with
  | zero => rfl
  | succ count inductionHypothesis =>
    have entry : loadu sv (ii * mixerSize + count * laneSize) lane =
        state.hashes (ii + lane) count := shuffled lane lane.isLt count within
    rw [score, toNat_adds, inductionHypothesis (Nat.le_of_succ_le within), mullo, sub, cvtepu8, set1,
      entry, toNat_square (by decide), squaredDifference_comm, squaredDistance_succ]
    omega

/-- A lane is a candidate when the distance of its prefix is below the best so far. -/
theorem candidate_iff {score : Lanes 16 16} {minDist : BitVec 32} (low : minDist.toNat < 65535)
    (lane : Fin 16) {distance : Nat} (isScore : (score lane).toNat = min 65535 (1 + distance)) :
    (candidates score (set1 (minDist.setWidth 16))).getLsbD (2 * lane) =
      decide (distance < minDist.toNat) := by
  have within : 2 * lane.val < 64 := by omega
  have threshold : (minDist.setWidth 16).toNat = minDist.toNat := by
    rw [BitVec.toNat_setWidth, Nat.mod_eq_of_lt (by omega)]
  have zero := subs_eq_zero_iff score (set1 (minDist.setWidth 16)) lane
  rw [set1, threshold, isScore] at zero
  rw [candidates]
  simp only [BitVec.getLsbD_setWidth, within, decide_true, Bool.true_and, getLsbD_movemask_bytes,
    getLsbD_cmpeq_setzero]
  rw [decide_eq_decide, zero]
  omega

/-! ## The walk over the candidates -/

/-- The state of a slot after some items: the broadcast threshold follows the best distance. -/
structure Tracks (cost : Nat → Nat) (limit count : Nat) (slot : Slot) : Prop where
  known : Known cost limit count slot.best
  thres8 : slot.thres8 = set1 (slot.best.minDist.setWidth 16)

section

variable {cost : Nat → Nat} {limit count : Nat} {slot : Slot}

theorem Tracks.minDist_le (tracks : Tracks cost limit count slot) :
    slot.best.minDist.toNat ≤ limit := by
  obtain ⟨index, minimum, -⟩ := tracks.known
  exact minimum.best_le_limit

theorem Tracks.skip (tracks : Tracks cost limit count slot)
    (above : slot.best.minDist.toNat ≤ cost count) : Tracks cost limit (count + 1) slot := by
  obtain ⟨index, minimum, sameIndex⟩ := tracks.known
  exact ⟨⟨index, minimum.skip above, sameIndex⟩, tracks.thres8⟩

end

section

variable {state : Database} {query : Nat → Byte} {limit ii : Nat} {slot : Slot}

theorem visit_best (state : Database) (query : Nat → Byte) (ii lane : Nat) (slot : Slot) :
    (visit state query ii (2 * lane) slot).best =
      improve slot.best (distanceAvx2 query (state.hashes (ii + lane)) 144) (ii + lane) := by
  rw [visit, improve, Nat.mul_div_cancel_left lane Nat.two_pos]
  split <;> rfl

theorem visit_tracks {lane : Nat}
    (tracks : Tracks (costs state query) limit (ii + lane) slot) :
    Tracks (costs state query) limit (ii + lane + 1) (visit state query ii (2 * lane) slot) where
  known := by
    rw [visit_best]
    exact tracks.known.improve (toNat_fullDistanceAvx2 _ _)
  thres8 := by
    rw [visit]
    split
    next => rfl
    next => exact tracks.thres8

/-- The walk when every lane at which the distance of the prefix was below the best distance
is marked.  The best distance only falls, so the lanes that are not marked still cannot improve it. -/
theorem walk_tracks {marked : Nat → Bool} {best low : Nat} (count : Nat)
    (complete : ∀ lane, lane < low + count → marked lane = false →
      best ≤ costs state query (ii + lane))
    (bounded : slot.best.minDist.toNat ≤ best)
    (tracks : Tracks (costs state query) limit (ii + low) slot) :
    Tracks (costs state query) limit (ii + (low + count))
      ((List.range' low count).foldl
        (fun slot lane => if marked lane then visit state query ii (2 * lane) slot else slot)
        slot) := by
  induction count generalizing low slot with
  | zero => exact tracks
  | succ count inductionHypothesis =>
    have shift : low + (count + 1) = low + 1 + count := by omega
    rw [shift] at complete ⊢
    rw [List.range'_succ, List.foldl_cons]
    cases here : marked low with
    | false =>
      have above := complete low (by omega) here
      exact inductionHypothesis complete bounded (tracks.skip (Nat.le_trans bounded above))
    | true =>
      refine inductionHypothesis complete ?_ (visit_tracks tracks)
      rw [if_pos rfl, visit_best, improve]
      split
      next below => exact Nat.le_trans (Nat.le_of_lt (BitVec.lt_def.mp below)) bounded
      next => exact bounded

end

/-! ## A block -/

theorem foldl_or_eq_zero {width : Nat} (mask : Nat → BitVec width) {indices : List Nat}
    {initial : BitVec width}
    (zero : indices.foldl (fun cc c => cc ||| mask c) initial = 0) :
    initial = 0 ∧ ∀ c ∈ indices, mask c = 0 := by
  induction indices generalizing initial with
  | nil => exact ⟨zero, fun _ among => absurd among List.not_mem_nil⟩
  | cons c indices inductionHypothesis =>
    obtain ⟨both, rest⟩ := inductionHypothesis zero
    obtain ⟨isInitial, here⟩ := BitVec.or_eq_zero_iff.mp both
    exact ⟨isInitial, List.forall_mem_cons.mpr ⟨here, rest⟩⟩

/-- The shortcuts for masks that are zero change nothing. -/
theorem searchBlock_eq (state : Database) (sv : Nat → Byte) (query : Nat → Nat → Byte) (ii : Nat)
    (slots : Nat → Slot) {c : Nat} (inside : c < batchSize) :
    searchBlock state sv query ii slots c =
      walkBits (visit state (query c) ii) 64
        (candidates (score sv (query c) ii mixerSize) (slots c).thres8 &&& 0x5555555555555555)
        (slots c) := by
  have none (zero : candidates (score sv (query c) ii mixerSize) (slots c).thres8 = 0) :
      slots c = walkBits (visit state (query c) ii) 64
        (candidates (score sv (query c) ii mixerSize) (slots c).thres8 &&& 0x5555555555555555)
        (slots c) := by
    have empty : (0 &&& 0x5555555555555555 : BitVec 64) = 0 := BitVec.zero_and
    rw [zero, walkBits, if_pos empty]
  rw [searchBlock]
  simp only
  split
  next zero =>
    exact none ((foldl_or_eq_zero _ zero).2 c (List.mem_range.mpr inside))
  next =>
    simp only
    split
    next zero => exact none zero
    next => rfl

theorem getLsbD_everySecond (mask : BitVec 64) (half : Nat) :
    (mask &&& 0x5555555555555555).getLsbD (2 * half) = mask.getLsbD (2 * half) ∧
      (mask &&& 0x5555555555555555).getLsbD (2 * half + 1) = false := by
  have bits : ∀ half < 32, (0x5555555555555555 : BitVec 64).getLsbD (2 * half) = true ∧
      (0x5555555555555555 : BitVec 64).getLsbD (2 * half + 1) = false := by decide
  rw [BitVec.getLsbD_and, BitVec.getLsbD_and]
  by_cases inside : half < 32
  · rw [(bits half inside).1, (bits half inside).2, Bool.and_true, Bool.and_false]
    exact ⟨rfl, rfl⟩
  · rw [BitVec.getLsbD_of_ge mask _ (by omega), BitVec.getLsbD_of_ge mask _ (by omega)]
    exact ⟨rfl, rfl⟩

theorem walkBits_candidates (body : Nat → Slot → Slot) (score thres8 : Lanes 16 16) (slot : Slot) :
    walkBits body 64 (candidates score thres8 &&& 0x5555555555555555) slot =
      (List.range' 0 16).foldl (fun slot lane =>
        if (candidates score thres8).getLsbD (2 * lane) then body (2 * lane) slot else slot)
        slot := by
  have beyond (lane : Nat) (above : 16 ≤ lane) :
      (candidates score thres8).getLsbD (2 * lane) = false := by
    rw [candidates, BitVec.getLsbD_setWidth, BitVec.getLsbD_of_ge _ _ (by omega), Bool.and_false]
  have unchanged (lanes : List Nat) (above : ∀ lane ∈ lanes, 16 ≤ lane) (slot : Slot) :
      lanes.foldl (fun slot lane =>
        if (candidates score thres8).getLsbD (2 * lane) then body (2 * lane) slot else slot)
        slot = slot := by
    induction lanes with
    | nil => rfl
    | cons lane lanes inductionHypothesis =>
      rw [List.foldl_cons, beyond lane (above lane List.mem_cons_self), if_neg Bool.false_ne_true]
      exact inductionHypothesis fun lane among => above lane (List.mem_cons_of_mem _ among)
  have even := eachBit_even body (candidates score thres8 &&& 0x5555555555555555)
    (fun half => (getLsbD_everySecond _ half).2) 0 32 slot
  simp only [(getLsbD_everySecond _ _).1] at even
  refine ((walkBits_eq body (Nat.le_refl 64) _ slot).trans even).trans ?_
  rw [show List.range' 0 32 = List.range' 0 16 ++ List.range' 16 16 from rfl, List.foldl_append]
  exact unchanged _ (by decide) _

theorem searchBlock_tracks {state : Database} {sv : Nat → Byte} {query : Nat → Nat → Byte}
    {limit ii c : Nat} {slots : Nat → Slot}
    (shuffled : ∀ l < laneSize, ∀ k < mixerSize,
      sv (ii * mixerSize + k * laneSize + l) = state.hashes (ii + l) k)
    (inside : c < batchSize) (low : limit < 65535)
    (tracks : Tracks (costs state (query c)) limit ii (slots c)) :
    Tracks (costs state (query c)) limit (ii + laneSize)
      (searchBlock state sv query ii slots c) := by
  rw [searchBlock_eq _ _ _ _ _ inside, walkBits_candidates]
  have atBlock : Tracks (costs state (query c)) limit (ii + 0) (slots c) := tracks
  refine walk_tracks laneSize (fun lane within unmarked => ?_) (Nat.le_refl _) atBlock
  have bounded := tracks.minDist_le
  have within : lane < 16 := by
    rw [Nat.zero_add] at within
    exact within
  have isScore : (score sv (query c) ii mixerSize ⟨lane, within⟩).toNat =
      min 65535 (1 + squaredDistance (query c) (state.hashes (ii + lane)) mixerSize) :=
    toNat_score shuffled ⟨lane, within⟩ (Nat.le_refl _)
  have isCandidate := candidate_iff (Nat.lt_of_le_of_lt bounded low) ⟨lane, within⟩ isScore
  rw [tracks.thres8, isCandidate, decide_eq_false_iff_not] at unmarked
  have least : squaredDistance (query c) (state.hashes (ii + lane)) mixerSize ≤
      costs state (query c) (ii + lane) := squaredDistance_mono _ _ (by decide)
  exact Nat.le_trans (Nat.le_of_not_lt unmarked) least

theorem search_tracks {threshold : BitVec 32} (low : threshold.toNat < 65535) (state : Database)
    (query : Nat → Nat → Byte) {c : Nat} (inside : c < batchSize) {blocks : Nat}
    (within : blocks ≤ state.items / laneSize) :
    Tracks (costs state (query c)) threshold.toNat (blocks * laneSize)
      (search threshold state query blocks c) := by
  induction blocks with
  | zero =>
    rw [Nat.zero_mul]
    exact ⟨⟨none, FirstMinimum.start _ _, rfl⟩, rfl⟩
  | succ blocks inductionHypothesis =>
    rw [search, Nat.succ_mul]
    refine searchBlock_tracks (fun l lane k narrow => ?_) inside low
      (inductionHypothesis (Nat.le_of_succ_le within))
    rw [Nat.add_assoc]
    exact shuffle_entry state within lane narrow

/-! ## What is printed -/

theorem toNat_limit (argument : Option (BitVec 32)) :
    (limit argument).toNat = min (threshold argument).toNat 65534 := by
  rw [limit]
  split
  next high =>
    rw [BitVec.le_def, show (65535 : BitVec 32).toNat = 65535 from rfl] at high
    rw [show (65535 - 1 : BitVec 32).toNat = 65534 from rfl]
    omega
  next low =>
    rw [BitVec.le_def, show (65535 : BitVec 32).toNat = 65535 from rfl] at low
    omega

theorem report_answers {state : Database} {query : Nat → Byte} {limit : Nat} {slot : Slot}
    (tracks : Tracks (costs state query) limit state.items slot) :
    Answers state limit query (report slot) := by
  obtain ⟨index, minimum, sameIndex⟩ := tracks.known
  obtain ⟨bound, isBound⟩ : ∃ bound, slot.best.minDist.toNat = bound := ⟨_, rfl⟩
  rw [isBound] at minimum
  rw [report]
  cases minimum with
  | absent above =>
    refine .inl ⟨?_, above⟩
    have none : slot.best.minIdx = -1 := sameIndex
    rw [if_neg (not_not_intro none), none]
  | found i inside below least first =>
    have isSome : slot.best.minIdx ≠ -1 := by
      rw [sameIndex, position]
      omega
    rw [if_pos isSome]
    exact .inr ⟨i, inside, sameIndex, isBound, below, least, first⟩

theorem search_answers (argument : Option (BitVec 32)) {state : Database}
    (aligned : state.items % laneSize = 0) {batch : List (Nat → Byte)} {j : Nat}
    {query : Nat → Byte} (isEntry : batch[j]? = some query) (few : batch.length ≤ batchSize) :
    Answers state (min (threshold argument).toNat 65534) query
      (report (search (limit argument) state (entry batch) (state.items / laneSize) j)) := by
  obtain ⟨isQuery, inside⟩ := entry_of_getElem? isEntry
  have low : (limit argument).toNat < 65535 := by
    rw [toNat_limit]
    omega
  have tracks := search_tracks low state (entry batch) (Nat.lt_of_lt_of_le inside few)
    (Nat.le_refl (state.items / laneSize))
  rw [Nat.div_mul_cancel (Nat.dvd_of_mod_eq_zero aligned), isQuery, toNat_limit] at tracks
  exact report_answers tracks

/-- The program prints the nearest item if it is below the threshold or 65534, whichever is less. -/
theorem saturating_search_exact (argument : Option (BitVec 32)) (state : Database)
    (aligned : state.items % 16 = 0) (groups : List (List (List Byte)))
    (sizes : ∀ group ∈ groups, 0 < group.length ∧ group.length ≤ batchSize)
    (valid : ∀ line ∈ groups.flatten, (parseQuery line).isSome) :
    ∃ printed : List Best,
      main argument state (inBatches groups) = ⟨printed, .finished groups.flatten.length⟩ ∧
        List.Forall₂ (Answers state (min (threshold argument).toNat 65534))
          (groups.flatten.filterMap parseQuery) printed := by
  have aligned : state.items % laneSize = 0 := aligned
  rw [main, if_neg (not_not_intro aligned)]
  exact eachBatch_answers _ _
    (fun batch j query isEntry few => search_answers argument aligned isEntry few) sizes valid

/-- Two queries, a pause, and one more, against a block of sixteen items, without a threshold. -/
theorem saturating_search_exact_three :
    ∃ printed : List Best,
      main none ⟨16, fun i _ => BitVec.ofNat 8 i⟩
          [some zeroLine, some zeroLine, none, some zeroLine, none] =
        ⟨printed, .finished 3⟩ := by
  obtain ⟨printed, prints, -⟩ := saturating_search_exact none ⟨16, fun i _ => BitVec.ofNat 8 i⟩
    rfl zeroGroups (by decide) zeroGroups_valid
  exact ⟨printed, prints⟩

end CloudflareBlog.Mmdist.ShortInvAvx2
