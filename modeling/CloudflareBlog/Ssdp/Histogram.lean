import CloudflareBlog.Lib.Bins
import Mathlib.Algebra.Order.Archimedean.Basic

/-!
# `mmhistogram`

The script sorts its input and then goes from bucket to bucket, where each takes the values up to its
bound off the end of the list, until the list is empty.  The bounds are powers of a base, multiples
of it, or the values themselves.

Numbers are rational: a float is one, and Python compares it with an integer exactly.
-/

namespace CloudflareBlog.Ssdp

open CloudflareBlog.Lib.Bins

/-- The arguments that the buckets depend on. -/
structure Args where
  base : Int
  linear : Bool
  justval : Bool

/-- An entry of `KV`. -/
structure Bucket where
  boundb : ℚ
  bound : ℚ
  c : Nat
  deriving DecidableEq

/-! ## The bucket loop -/

/-- `M.sort(reverse=True)`. -/
def sortReverse (M : List ℚ) : List ℚ := M.mergeSort fun a b => decide (b ≤ a)

/-- `boundb` and `bound`.  Here and below `M` is read from its end: its head is `M[-1]`, and there is
one whenever the bounds are computed. -/
def bounds (args : Args) (i : Nat) (M : List ℚ) : ℚ × ℚ :=
  if args.justval then (M.headD 0, M.headD 0)
  else if ¬args.linear then
    let boundb : Int := if i > 0 then args.base ^ (i - 1) else 0
    let bound : Int := args.base ^ i
    (boundb, bound)
  else
    let boundb : Int := args.base * i
    let bound : Int := args.base * (i + 1)
    (boundb, bound)

/-- `while len(M) > 0 and bound >= M[-1]`: how many values are popped, and what is left. -/
def popUpTo (bound : ℚ) : List ℚ → Nat × List ℚ
  | [] => (0, [])
  | v :: M =>
    if bound ≥ v then
      let (c, M) := popUpTo bound M
      (c + 1, M)
    else (0, v :: M)

/-- `for i in itertools.count()`, for as many rounds as there is fuel. -/
def bucketLoop (args : Args) : Nat → Nat → List ℚ → Option (List Bucket)
  | 0, _, _ => none
  | fuel + 1, i, M =>
    let (boundb, bound) := bounds args i M
    let (c, M) := popUpTo bound M
    let kv : Bucket := { boundb := boundb, bound := bound, c := c }
    if M = [] then some [kv] else (bucketLoop args fuel (i + 1) M).map (kv :: ·)

/-- `KV` for an input. -/
def buckets (args : Args) (fuel : Nat) (input : List ℚ) : Option (List Bucket) :=
  bucketLoop args fuel 0 (sortReverse input).reverse

/-! ## What the buckets are -/

/-- The first bucket whose bound a value does not exceed. -/
def firstBucket (KV : List Bucket) (v : ℚ) : Option Nat :=
  KV.findIdx? fun kv => decide (v ≤ kv.bound)

/-- Every value is counted in one bucket, the first whose bound it does not exceed. -/
structure Partitions (input : List ℚ) (KV : List Bucket) : Prop where
  total : (KV.map Bucket.c).sum = input.length
  placed : ∀ v ∈ input, (firstBucket KV v).isSome
  counted : ∀ k kv, KV[k]? = some kv →
    kv.c = input.countP fun v => decide (firstBucket KV v = some k)

/-- The buckets have no gaps between them, and the first begins at 0. -/
structure Contiguous (KV : List Bucket) : Prop where
  first : ∀ kv, KV[0]? = some kv → kv.boundb = 0
  next : ∀ k kv after, KV[k]? = some kv → KV[k + 1]? = some after → after.boundb = kv.bound

/-- There is a bucket for each value, and they are in ascending order. -/
structure Distinct (input : List ℚ) (KV : List Bucket) : Prop where
  ascending : KV.Pairwise fun kv after => kv.bound < after.bound
  values : ∀ v, v ∈ KV.map Bucket.bound ↔ v ∈ input
  width : ∀ kv ∈ KV, kv.boundb = kv.bound

/-- The bases that the loop gets to its end with. -/
def Args.Valid (args : Args) : Prop :=
  args.justval ∨ (¬args.linear ∧ 2 ≤ args.base) ∨ (args.linear ∧ 1 ≤ args.base)

/-! ## One round -/

theorem popUpTo_eq (bound : ℚ) (M : List ℚ) :
    popUpTo bound M =
      ((M.takeWhile fun v => decide (v ≤ bound)).length, M.dropWhile fun v => decide (v ≤ bound)) := by
  induction M with
  | nil => rfl
  | cons v M inductionHypothesis =>
    rw [popUpTo, List.takeWhile_cons, List.dropWhile_cons]
    by_cases below : v ≤ bound
    · rw [if_pos below, if_pos (decide_eq_true below), if_pos (decide_eq_true below),
        inductionHypothesis]
      rfl
    · rw [if_neg below, if_neg (by simpa using below), if_neg (by simpa using below)]
      rfl

/-- What a round does: it splits the values at its bound, and goes on if any are left. -/
theorem bucketLoop_succ (args : Args) (fuel i : Nat) {M : List ℚ} (sorted : M.Pairwise (· ≤ ·)) :
    ∃ low high, M = low ++ high ∧ (∀ v ∈ low, v ≤ (bounds args i M).2) ∧
      (∀ v ∈ high, (bounds args i M).2 < v) ∧ high.Pairwise (· ≤ ·) ∧
      bucketLoop args (fuel + 1) i M =
        if high = [] then some [⟨(bounds args i M).1, (bounds args i M).2, low.length⟩]
        else (bucketLoop args fuel (i + 1) high).map
          (⟨(bounds args i M).1, (bounds args i M).2, low.length⟩ :: ·) := by
  refine ⟨M.takeWhile fun v => decide (v ≤ (bounds args i M).2),
    M.dropWhile fun v => decide (v ≤ (bounds args i M).2),
    List.takeWhile_append_dropWhile.symm, fun v among => ?_,
    fun v among => above_of_mem_dropWhile sorted among,
    sorted.sublist (List.dropWhile_sublist _), ?_⟩
  · simpa using List.mem_takeWhile_imp among
  · simp only [bucketLoop, popUpTo_eq]

/-- The rounds from the `i`th one on: the values, and the buckets that come of them. -/
inductive Rounds (args : Args) : Nat → List ℚ → List Bucket → Prop where
  | last {i : Nat} {M : List ℚ} (below : ∀ v ∈ M, v ≤ (bounds args i M).2) :
      Rounds args i M [⟨(bounds args i M).1, (bounds args i M).2, M.length⟩]
  | more {i : Nat} {M low high : List ℚ} {KV : List Bucket} (split : M = low ++ high)
      (below : ∀ v ∈ low, v ≤ (bounds args i M).2) (above : ∀ v ∈ high, (bounds args i M).2 < v)
      (nonempty : high ≠ []) (rounds : Rounds args (i + 1) high KV) :
      Rounds args i M (⟨(bounds args i M).1, (bounds args i M).2, low.length⟩ :: KV)

theorem bucketLoop_rounds {args : Args} {fuel i : Nat} {M : List ℚ} {KV : List Bucket}
    (sorted : M.Pairwise (· ≤ ·)) (returns : bucketLoop args fuel i M = some KV) :
    Rounds args i M KV := by
  induction fuel generalizing i M KV with
  | zero => cases returns
  | succ fuel inductionHypothesis =>
    obtain ⟨low, high, split, below, above, sortedHigh, round⟩ :=
      bucketLoop_succ args fuel i sorted
    rw [round] at returns
    by_cases done : high = []
    · rw [if_pos done] at returns
      rw [done, List.append_nil] at split
      rw [← Option.some.inj returns, ← split]
      rw [← split] at below
      exact .last below
    · rw [if_neg done, Option.map_eq_some_iff] at returns
      obtain ⟨later, returns, isKV⟩ := returns
      rw [← isKV]
      exact .more split below above done (inductionHypothesis sortedHigh returns)

/-! ## The loop ends -/

theorem bucketLoop_returns {args : Args} {fuel i : Nat} {M : List ℚ} (sorted : M.Pairwise (· ≤ ·))
    (later : ∀ low high, M = low ++ high → high.Pairwise (· ≤ ·) →
      (∀ v ∈ low, v ≤ (bounds args i M).2) → (∀ v ∈ high, (bounds args i M).2 < v) → high ≠ [] →
        ∃ KV, bucketLoop args fuel (i + 1) high = some KV) :
    ∃ KV, bucketLoop args (fuel + 1) i M = some KV := by
  obtain ⟨low, high, split, below, above, sortedHigh, round⟩ :=
    bucketLoop_succ args fuel i sorted
  rw [round]
  by_cases done : high = []
  · exact ⟨_, if_pos done⟩
  · obtain ⟨KV, returns⟩ := later low high split sortedHigh below above done
    exact ⟨_, by rw [if_neg done, returns]; rfl⟩

/-- In `justval` mode every round takes a value. -/
theorem returns_of_length {args : Args} (justval : args.justval) {fuel : Nat} {i : Nat} {M : List ℚ}
    (sorted : M.Pairwise (· ≤ ·)) (enough : M.length ≤ fuel) :
    ∃ KV, bucketLoop args (fuel + 1) i M = some KV := by
  induction fuel generalizing i M with
  | zero =>
    rw [List.eq_nil_of_length_eq_zero (Nat.le_zero.mp enough)]
    exact ⟨_, rfl⟩
  | succ fuel inductionHypothesis =>
    refine bucketLoop_returns sorted fun low high split sortedHigh _ above nonempty => ?_
    refine inductionHypothesis sortedHigh ?_
    cases low with
    | nil =>
      -- the first value is its own bound
      obtain ⟨v, rest, rfl⟩ := List.exists_cons_of_ne_nil nonempty
      have self := above v List.mem_cons_self
      rw [split, bounds, if_pos justval] at self
      exact absurd self (lt_irrefl v)
    | cons v low =>
      rw [split, List.length_append, List.length_cons] at enough
      omega

theorem bounds_eq {args : Args} (bounded : ¬args.justval) (i : Nat) (M : List ℚ) :
    bounds args i M = bounds args i [] := by
  rw [bounds, bounds, if_neg bounded, if_neg bounded]

/-- In the other modes the loop has ended when the bound has reached all values. -/
theorem returns_of_bound {args : Args} (bounded : ¬args.justval) {n : Nat} {i : Nat} {M : List ℚ}
    (sorted : M.Pairwise (· ≤ ·)) (reached : ∀ v ∈ M, v ≤ (bounds args (i + n) []).2) :
    ∃ KV, bucketLoop args (n + 1) i M = some KV := by
  -- `n` counts the rounds up to that bound, which none of the values that are left can exceed.
  induction n generalizing i M with
  | zero =>
    refine bucketLoop_returns sorted fun low high split _ _ above nonempty => ?_
    obtain ⟨v, rest, rfl⟩ := List.exists_cons_of_ne_nil nonempty
    have reachedFirst := reached v (by rw [split]; exact List.mem_append_right _ List.mem_cons_self)
    have aboveFirst := above v List.mem_cons_self
    rw [bounds_eq bounded] at aboveFirst
    exact absurd reachedFirst (not_le_of_gt aboveFirst)
  | succ n inductionHypothesis =>
    refine bucketLoop_returns sorted fun low high split sortedHigh _ _ _ => ?_
    refine inductionHypothesis sortedHigh fun v among => ?_
    rw [Nat.add_assoc, Nat.add_comm 1 n]
    exact reached v (by rw [split]; exact List.mem_append_right _ among)

theorem exists_ge (M : List ℚ) : ∃ n : Nat, ∀ v ∈ M, v ≤ n := by
  induction M with
  | nil => exact ⟨0, fun v among => absurd among List.not_mem_nil⟩
  | cons v M inductionHypothesis =>
    obtain ⟨most, le⟩ := inductionHypothesis
    obtain ⟨n, ge⟩ := exists_nat_ge v
    refine ⟨max n most, fun other among => ?_⟩
    rw [Nat.cast_max]
    cases List.mem_cons.mp among with
    | inl same => exact same ▸ le_max_of_le_left ge
    | inr among => exact le_max_of_le_right (le other among)

theorem le_bound {args : Args} (valid : args.Valid) (bounded : ¬args.justval) (n : Nat) :
    (n : ℚ) ≤ (bounds args n []).2 := by
  rw [bounds, if_neg bounded]
  obtain justval | ⟨log, base⟩ | ⟨linear, base⟩ := valid
  · exact absurd justval bounded
  · rw [if_pos log]
    have grows : (n : Int) ≤ args.base ^ n := calc
      (n : Int) ≤ 2 ^ n := by exact_mod_cast Nat.le_of_lt Nat.lt_two_pow_self
      _ ≤ args.base ^ n := pow_le_pow_left₀ (by decide) base n
    change (n : ℚ) ≤ ((args.base ^ n : Int) : ℚ)
    exact_mod_cast grows
  · rw [if_neg (not_not_intro linear)]
    have grows : (n : Int) ≤ args.base * (n + 1) := calc
      (n : Int) ≤ 1 * (n + 1) := by omega
      _ ≤ args.base * (n + 1) := Int.mul_le_mul_of_nonneg_right base (by omega)
    change (n : ℚ) ≤ ((args.base * (n + 1) : Int) : ℚ)
    exact_mod_cast grows

theorem bucketLoop_ends {args : Args} (valid : args.Valid) {M : List ℚ}
    (sorted : M.Pairwise (· ≤ ·)) : ∃ enough KV, bucketLoop args enough 0 M = some KV := by
  by_cases justval : args.justval
  · exact ⟨M.length + 1, returns_of_length justval sorted (Nat.le_refl _)⟩
  · obtain ⟨n, most⟩ := exists_ge M
    refine ⟨n + 1, returns_of_bound justval sorted fun v among => ?_⟩
    rw [Nat.zero_add]
    exact le_trans (most v among) (le_bound valid justval n)

theorem bucketLoop_mono {args : Args} {fuel i : Nat} {M : List ℚ} {KV : List Bucket}
    (returns : bucketLoop args fuel i M = some KV) (more : Nat) :
    bucketLoop args (fuel + more) i M = some KV := by
  induction fuel generalizing i M KV with
  | zero => cases returns
  | succ fuel inductionHypothesis =>
    rw [Nat.add_right_comm]
    simp only [bucketLoop] at returns ⊢
    by_cases done : (popUpTo (bounds args i M).2 M).2 = []
    · rw [if_pos done] at returns ⊢
      exact returns
    · rw [if_neg done, Option.map_eq_some_iff] at returns
      obtain ⟨later, returns, isKV⟩ := returns
      rw [if_neg done, inductionHypothesis returns, ← isKV]
      rfl

/-! ## What it returns -/

theorem Rounds.fills {args : Args} {i : Nat} {M : List ℚ} {KV : List Bucket}
    (rounds : Rounds args i M KV) : Fills M (KV.map fun kv => (kv.bound, kv.c)) := by
  induction rounds with
  | last below => exact .last below
  | more split below above _ _ inductionHypothesis =>
    subst split
    exact .more below above inductionHypothesis

/-- The bounds of a bucket depend on its number only. -/
theorem Rounds.bounds_eq {args : Args} (bounded : ¬args.justval) {i : Nat} {M : List ℚ}
    {KV : List Bucket} (rounds : Rounds args i M KV) {k : Nat} {kv : Bucket}
    (isBucket : KV[k]? = some kv) :
    kv.boundb = (bounds args (i + k) []).1 ∧ kv.bound = (bounds args (i + k) []).2 := by
  induction rounds generalizing k with
  | last =>
    cases k with
    | zero =>
      rw [← Option.some.inj isBucket, Ssdp.bounds_eq bounded]
      exact ⟨rfl, rfl⟩
    | succ k => cases isBucket
  | more _ _ _ _ _ inductionHypothesis =>
    cases k with
    | zero =>
      rw [← Option.some.inj isBucket, Ssdp.bounds_eq bounded]
      exact ⟨rfl, rfl⟩
    | succ k =>
      rw [← Nat.add_assoc, Nat.add_right_comm]
      exact inductionHypothesis isBucket

theorem bounds_next (args : Args) (bounded : ¬args.justval) (k : Nat) :
    (bounds args (k + 1) []).1 = (bounds args k []).2 := by
  rw [bounds, bounds, if_neg bounded, if_neg bounded]
  by_cases linear : args.linear
  · rw [if_neg (not_not_intro linear), if_neg (not_not_intro linear)]
    simp
  · rw [if_pos linear, if_pos linear]
    simp

theorem bounds_zero (args : Args) (bounded : ¬args.justval) : (bounds args 0 []).1 = 0 := by
  rw [bounds, if_neg bounded]
  by_cases linear : args.linear
  · rw [if_neg (not_not_intro linear)]
    simp
  · rw [if_pos linear]
    simp

theorem Rounds.contiguous {args : Args} (bounded : ¬args.justval) {M : List ℚ} {KV : List Bucket}
    (rounds : Rounds args 0 M KV) : Contiguous KV where
  first := fun kv isFirst => by
    rw [(rounds.bounds_eq bounded isFirst).1, bounds_zero args bounded]
  next := fun k kv after isBucket isNext => by
    rw [(rounds.bounds_eq bounded isNext).1, (rounds.bounds_eq bounded isBucket).2, ← Nat.add_assoc,
      bounds_next args bounded]

/-- In `justval` mode the values of a round are all the same. -/
theorem justval_low {args : Args} (justval : args.justval) {i : Nat} {M low high : List ℚ}
    (sorted : M.Pairwise (· ≤ ·)) (nonempty : M ≠ []) (split : M = low ++ high)
    (below : ∀ v ∈ low, v ≤ (bounds args i M).2) (above : ∀ v ∈ high, (bounds args i M).2 < v) :
    (bounds args i M).1 = (bounds args i M).2 ∧ ∀ v, v ∈ low ↔ v = (bounds args i M).2 := by
  obtain ⟨least, rest, rfl⟩ := List.exists_cons_of_ne_nil nonempty
  have isBounds : bounds args i (least :: rest) = (least, least) := if_pos justval
  rw [isBounds] at below above ⊢
  refine ⟨rfl, fun v => ⟨fun among => ?_, fun same => ?_⟩⟩
  · have inside : v ∈ least :: rest := by
      rw [split]
      exact List.mem_append_left _ among
    cases List.mem_cons.mp inside with
    | inl same => exact same
    | inr behind => exact le_antisymm (below v among) (List.rel_of_pairwise_cons sorted behind)
  · have inside : least ∈ low ++ high := by
      rw [← split]
      exact List.mem_cons_self
    rw [same]
    exact (List.mem_append.mp inside).resolve_right fun among => lt_irrefl _ (above least among)

theorem Rounds.distinct {args : Args} (justval : args.justval) {i : Nat} {M : List ℚ}
    {KV : List Bucket} (nonempty : M ≠ []) (sorted : M.Pairwise (· ≤ ·))
    (rounds : Rounds args i M KV) : Distinct M KV := by
  induction rounds with
  | last below =>
    obtain ⟨width, low⟩ := justval_low justval sorted nonempty (List.append_nil _).symm below
      fun v among => absurd among List.not_mem_nil
    refine ⟨List.pairwise_singleton _ _, fun v => ?_, fun kv among => ?_⟩
    · rw [low, List.map_singleton, List.mem_singleton]
    · rw [List.mem_singleton.mp among]
      exact width
  | more split below above some _ inductionHypothesis =>
    obtain ⟨width, low⟩ := justval_low justval sorted nonempty split below above
    have sortedHigh := (List.pairwise_append.mp (split ▸ sorted)).2.1
    obtain ⟨ascending, values, widths⟩ := inductionHypothesis some sortedHigh
    refine ⟨List.pairwise_cons.mpr ⟨fun after among => ?_, ascending⟩, fun v => ?_, fun kv among => ?_⟩
    · exact above _ ((values _).mp (List.mem_map_of_mem among))
    · rw [List.map_cons, List.mem_cons, values, split, List.mem_append, low, ← split]
    · cases List.mem_cons.mp among with
      | inl same =>
        rw [same]
        exact width
      | inr behind => exact widths kv behind

/-! ## All inputs -/

theorem sortReverse_ascending (input : List ℚ) :
    (sortReverse input).reverse.Pairwise (· ≤ ·) := by
  have sorted : (sortReverse input).Pairwise fun a b => decide (b ≤ a) := by
    refine List.pairwise_mergeSort (fun a b c ab bc => ?_) (fun a b => ?_) input
    · rw [decide_eq_true_eq] at ab bc ⊢
      exact le_trans bc ab
    · rw [Bool.or_eq_true, decide_eq_true_eq, decide_eq_true_eq]
      exact le_total b a
  rw [List.pairwise_reverse]
  exact sorted.imp fun descends => of_decide_eq_true descends

theorem firstBucket_eq (KV : List Bucket) (v : ℚ) :
    firstBucket KV v = firstBin (KV.map fun kv => (kv.bound, kv.c)) v := by
  rw [firstBucket, firstBin, List.findIdx?_map]
  rfl

theorem Partitions.of_fills {M : List ℚ} {KV : List Bucket} {input : List ℚ} (perm : M.Perm input)
    (fills : Fills M (KV.map fun kv => (kv.bound, kv.c))) : Partitions input KV where
  total := by
    rw [← perm.length_eq, ← fills.total, List.map_map]
    rfl
  placed := fun v among => by
    rw [firstBucket_eq]
    exact fills.placed (perm.mem_iff.mpr among)
  counted := fun k kv isBucket => by
    have counted := fills.counted (k := k) (by rw [List.getElem?_map, isBucket]; rfl)
    simp only [firstBucket_eq]
    rw [← perm.countP_eq]
    exact counted

/-- The loop ends, and its buckets partition the values: at bounds without gaps, or at the values
themselves. -/
theorem buckets_partition (args : Args) (valid : args.Valid) (input : List ℚ) (nonempty : input ≠ []) :
    ∃ enough KV, (∀ more, buckets args (enough + more) input = some KV) ∧ Partitions input KV ∧
      (¬args.justval → Contiguous KV) ∧ (args.justval → Distinct input KV) := by
  have sorted := sortReverse_ascending input
  have perm : (sortReverse input).reverse.Perm input :=
    (List.reverse_perm _).trans (List.mergeSort_perm _ _)
  obtain ⟨enough, KV, returns⟩ := bucketLoop_ends valid sorted
  have rounds := bucketLoop_rounds sorted returns
  refine ⟨enough, KV, bucketLoop_mono returns, .of_fills perm rounds.fills,
    fun bounded => rounds.contiguous bounded, fun justval => ?_⟩
  have some : (sortReverse input).reverse ≠ [] := fun none => by
    rw [none] at perm
    exact nonempty perm.symm.eq_nil
  obtain ⟨ascending, values, width⟩ := rounds.distinct justval some sorted
  exact ⟨ascending, fun v => (values v).trans perm.mem_iff, width⟩

/-- Powers of two, for a negative value, two that are the same, and one on a bound. -/
theorem buckets_partition_four :
    ∃ enough KV,
      (∀ more, buckets ⟨2, false, false⟩ (enough + more) [4, -1, 3, 3] = some KV) ∧
        Partitions [4, -1, 3, 3] KV ∧ Contiguous KV := by
  obtain ⟨enough, KV, returns, partitions, contiguous, -⟩ :=
    buckets_partition ⟨2, false, false⟩ (.inr (.inl ⟨Bool.false_ne_true, by decide⟩)) [4, -1, 3, 3]
      (List.cons_ne_nil _ _)
  exact ⟨enough, KV, returns, partitions, contiguous Bool.false_ne_true⟩

end CloudflareBlog.Ssdp
